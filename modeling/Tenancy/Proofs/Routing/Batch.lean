/-
**All ways of asking agree.**

A batch of keys is sorted by a loop of its own, which counts as it goes and stops at the first key
that names no shard.  It tells what adding the entities one by one tells: it succeeds if every
addition does, and then puts the place of each key into the group of the shard that the addition
goes to; otherwise it fails as the first failing addition does.  Either way it leaves the counts
that the additions up to there leave.  A deletion goes where the addition goes, and so does a query
for the name that a key carries.

Main definitions:

* `Tenancy.Routing.Router.keyIndex?` — the number of the shard that a key goes to;
* `Tenancy.Routing.InGroup` — a place is in the group of a shard;
* `Tenancy.Routing.Router.Sorts` — **groups that sort the places of keys by shard**;
* `Tenancy.Routing.Router.afterAdding` — the counts after adding entities one by one.

Main results:

* `Tenancy.Routing.Router.addition_eq_ok_iff` — an addition goes to the shard with the number of the
  key;
* `Tenancy.Routing.Router.Sorts.addPlace` — one more key is sorted in;
* `Tenancy.Routing.Router.batchFrom_of_found`, `Tenancy.Routing.Router.batchFrom_of_missing` — a
  batch whose keys all go somewhere, and one that stops;
* `Tenancy.Routing.Router.entries_agree` — **all ways of asking agree**.
-/

import Tenancy.Routing.Traffic

set_option relaxedAutoImplicit false
set_option autoImplicit false

universe u

namespace Tenancy.Routing

/-! ### Groups -/

/-- A place is in the group of a shard. -/
def InGroup (groups : Groups) (index place : Nat) : Prop :=
  ∃ places, groups[index]? = some places ∧ place ∈ places

theorem getElem?_addPlace (groups : Groups) (index place other : Nat) :
    (addPlace groups index place)[other]? =
      if index = other then some (groups.getD index [] ++ [place]) else groups[other]? := by
  simp only [addPlace, Std.ExtTreeMap.getElem?_insert, Std.LawfulEqCmp.compare_eq_iff_eq]

/-- What is in the group of a shard, which is empty if there is none. -/
theorem mem_getD_iff {groups : Groups} {index place : Nat} :
    place ∈ groups.getD index [] ↔ InGroup groups index place := by
  rw [Std.ExtTreeMap.getD_eq_getD_getElem?, InGroup]
  cases groups[index]? <;> simp

/-- One more place is put under a shard, and nothing else changes. -/
theorem inGroup_addPlace {groups : Groups} {index place other p : Nat} :
    InGroup (addPlace groups index place) other p ↔
      InGroup groups other p ∨ other = index ∧ p = place := by
  rw [InGroup, getElem?_addPlace]
  by_cases h : index = other
  · subst h
    simp [mem_getD_iff]
  · simp [h, Ne.symm h, InGroup]

namespace Router

variable {η : Type u} {r : Router η} {key : String} {index : Nat} {t : Traffic}

/-! ### Where a key goes -/

/-- The number of the shard that a key goes to: that of the name it carries, or zero. -/
def keyIndex? (r : Router η) (key : String) : Option Nat :=
  match Routing.shardName? key r.options.separator with
  | some name => r.shardIndex? name
  | none => some 0

/-- The counts do not matter for what is found. -/
theorem fst_findName (r : Router η) (name : String) (t t' : Traffic) :
    (r.findName name t).1 = (r.findName name t').1 := by
  simp only [findName]
  cases r.byName[name]? <;> rfl

theorem fst_findKey (r : Router η) (key : String) (t t' : Traffic) :
    (r.findKey key t).1 = (r.findKey key t').1 := by
  simp only [findKey]
  cases Routing.shardName? key r.options.separator with
  | some name => exact r.fst_findName name t t'
  | none => rfl

/-- A key is found in the shard with the number that it goes to. -/
theorem fst_findKey_eq_ok_iff {i : Fin r.shards.length} :
    (r.findKey key t).1 = .ok i ↔ r.keyIndex? key = some i.val := by
  simp only [findKey, keyIndex?]
  cases Routing.shardName? key r.options.separator with
  | none =>
      constructor
      · intro h
        cases h
        rfl
      · intro h
        have hzero : r.defaultIndex = i := Fin.ext (Option.some.inj h)
        rw [hzero]
  | some name =>
      simp only [findName, shardIndex?]
      cases r.byName[name]? with
      | none =>
          constructor
          · intro h
            cases h
          · intro h
            cases h
      | some j =>
          constructor
          · intro h
            cases h
            rfl
          · intro h
            have hsame : j = i := Fin.ext (Option.some.inj h)
            rw [hsame]

/-- A key that goes nowhere carries a name that no shard has. -/
theorem fst_findKey_eq_error_iff {failure : Failure} :
    (r.findKey key t).1 = .error failure ↔
      ∃ name, Routing.shardName? key r.options.separator = some name ∧
        r.shardIndex? name = none ∧ failure = .shardNotFound name := by
  simp only [findKey]
  cases Routing.shardName? key r.options.separator with
  | none => simp
  | some name =>
      simp only [findName, shardIndex?, Option.some.injEq, exists_eq_left', Option.map_eq_none_iff]
      cases r.byName[name]? <;> simp [eq_comm]

/-- A key that goes to a shard is found there. -/
theorem exists_fst_findKey (h : r.keyIndex? key = some index) (t : Traffic) :
    ∃ i : Fin r.shards.length, i.val = index ∧ (r.findKey key t).1 = .ok i := by
  cases hfound : (r.findKey key t).1 with
  | error failure =>
      obtain ⟨name, hname, hnone, -⟩ := fst_findKey_eq_error_iff.1 hfound
      simp only [keyIndex?, hname, hnone] at h
      cases h
  | ok i =>
      rw [fst_findKey_eq_ok_iff.1 hfound] at h
      exact ⟨i, Option.some.inj h, rfl⟩

theorem fst_addition (r : Router η) (key : String) (t : Traffic) :
    (r.addition key t).1 = (r.findKey key t.addition).1.map r.shard := rfl

/-- **An addition goes to the shard with the number of the key.** -/
theorem addition_eq_ok_iff {handle : η} :
    (r.addition key t).1 = .ok handle ↔
      ∃ index, r.keyIndex? key = some index ∧ r.shards[index]? = some handle := by
  rw [fst_addition]
  constructor
  · intro h
    cases hfound : (r.findKey key t.addition).1 with
    | error failure =>
        rw [hfound] at h
        cases h
    | ok i =>
        rw [hfound] at h
        cases h
        exact ⟨i.val, fst_findKey_eq_ok_iff.1 hfound, List.getElem?_eq_getElem i.isLt⟩
  · rintro ⟨index, hkey, hhandle⟩
    obtain ⟨hlt, rfl⟩ := List.getElem?_eq_some_iff.1 hhandle
    have hfound : (r.findKey key t.addition).1 = .ok ⟨index, hlt⟩ := fst_findKey_eq_ok_iff.2 hkey
    rw [hfound]
    rfl

/-! ### Sorting the places of keys -/

/-- **Groups that sort the places of keys by shard**: a place is in the group of the shard that its
key goes to, the places of a group ascend, and no group is empty. -/
structure Sorts (r : Router η) (keys : List String) (groups : Groups) : Prop where
  inGroup_iff : ∀ index place, InGroup groups index place ↔
    ∃ key, keys[place]? = some key ∧ r.keyIndex? key = some index
  ascending : ∀ (index : Nat) (places : List Nat), groups[index]? = some places →
    places.Pairwise (· < ·)
  nonempty : ∀ (index : Nat) (places : List Nat), groups[index]? = some places → places ≠ []

theorem sorts_nil (r : Router η) : r.Sorts [] ∅ := by
  refine ⟨?_, ?_, ?_⟩
  · intro index place
    simp [InGroup]
  · intro index places h
    simp at h
  · intro index places h
    simp at h

/-- The places of keys are below the number of keys. -/
theorem Sorts.place_lt {keys : List String} {groups : Groups} (h : r.Sorts keys groups)
    {place : Nat} (hplace : InGroup groups index place) : place < keys.length := by
  obtain ⟨key, hkey, -⟩ := (h.inGroup_iff index place).1 hplace
  exact (List.getElem?_eq_some_iff.1 hkey).1

/-- **One more key is sorted in.** -/
theorem Sorts.addPlace {keys : List String} {groups : Groups} (h : r.Sorts keys groups)
    (hkey : r.keyIndex? key = some index) :
    r.Sorts (keys ++ [key]) (Routing.addPlace groups index keys.length) := by
  refine ⟨?_, ?_, ?_⟩
  · intro other place
    rw [inGroup_addPlace, h.inGroup_iff]
    constructor
    · rintro (⟨k, hk, hother⟩ | ⟨rfl, rfl⟩)
      · have hlt := (List.getElem?_eq_some_iff.1 hk).1
        exact ⟨k, by rw [List.getElem?_append_left hlt, hk], hother⟩
      · exact ⟨key, by simp, hkey⟩
    · rintro ⟨k, hk, hother⟩
      rcases Nat.lt_or_ge place keys.length with hlt | hge
      · rw [List.getElem?_append_left hlt] at hk
        exact .inl ⟨k, hk, hother⟩
      · have hlast := (List.getElem?_eq_some_iff.1 hk).1
        rw [List.length_append, List.length_singleton] at hlast
        have hplace : place = keys.length := by omega
        subst hplace
        have hsame : key = k := by simpa using hk
        subst hsame
        exact .inr ⟨Option.some.inj (hother.symm.trans hkey), rfl⟩
  · intro other places hplaces
    rw [getElem?_addPlace] at hplaces
    split at hplaces
    · cases hplaces
      rw [List.pairwise_append]
      refine ⟨?_, List.pairwise_singleton _ _, ?_⟩
      · rw [Std.ExtTreeMap.getD_eq_getD_getElem?]
        cases hold : groups[index]? with
        | none => exact .nil
        | some old => exact h.ascending index old hold
      · intro place hplace last hlast
        rw [List.mem_singleton] at hlast
        subst hlast
        exact h.place_lt (mem_getD_iff.1 hplace)
    · exact h.ascending other places hplaces
  · intro other places hplaces
    rw [getElem?_addPlace] at hplaces
    split at hplaces
    · cases hplaces
      simp
    · exact h.nonempty other places hplaces

/-- If all keys go somewhere, each place is in just one group. -/
theorem Sorts.existsUnique {keys : List String} {groups : Groups} (h : r.Sorts keys groups)
    (hkeys : ∀ key ∈ keys, ∃ index, r.keyIndex? key = some index) (place : Nat) :
    place < keys.length ↔ ∃ index, InGroup groups index place ∧
      ∀ other, InGroup groups other place → other = index := by
  constructor
  · intro hlt
    obtain ⟨index, hindex⟩ := hkeys keys[place] (List.getElem_mem hlt)
    have hplace : keys[place]? = some keys[place] := List.getElem?_eq_getElem hlt
    refine ⟨index, (h.inGroup_iff index place).2 ⟨keys[place], hplace, hindex⟩, ?_⟩
    intro other hother
    obtain ⟨key, hkey, hsame⟩ := (h.inGroup_iff other place).1 hother
    rw [hplace] at hkey
    cases hkey
    rw [hindex] at hsame
    exact (Option.some.inj hsame).symm
  · rintro ⟨index, hindex, -⟩
    exact h.place_lt hindex

/-! ### A batch -/

/-- The counts after adding the entities with the keys one by one. -/
def afterAdding (r : Router η) (keys : List String) (t : Traffic) : Traffic :=
  keys.foldl (fun t key => (r.addition key t).2) t

theorem batchFrom_cons_of_ok {i : Fin r.shards.length} (h : (r.findKey key t.addition).1 = .ok i)
    (place : Nat) (keys : List String) (groups : Groups) :
    r.batchFrom place (key :: keys) groups t =
      r.batchFrom (place + 1) keys (Routing.addPlace groups i.val place) (r.addition key t).2 := by
  have hpair : r.findKey key t.addition = (.ok i, (r.addition key t).2) := Prod.ext h rfl
  rw [batchFrom, hpair]

theorem batchFrom_cons_of_error {failure : Failure}
    (h : (r.findKey key t.addition).1 = .error failure) (place : Nat) (keys : List String)
    (groups : Groups) :
    r.batchFrom place (key :: keys) groups t = (.error failure, (r.addition key t).2) := by
  have hpair : r.findKey key t.addition = (.error failure, (r.addition key t).2) := Prod.ext h rfl
  rw [batchFrom, hpair]

/-- **A batch whose keys all go somewhere**: `done` has been sorted, and `keys` are to come. -/
theorem batchFrom_of_found {done keys : List String} {groups : Groups} (h : r.Sorts done groups)
    (hkeys : ∀ key ∈ keys, ∃ index, r.keyIndex? key = some index) :
    ∃ sorted, r.batchFrom done.length keys groups t = (.ok sorted, r.afterAdding keys t) ∧
      r.Sorts (done ++ keys) sorted := by
  induction keys generalizing done groups t with
  | nil =>
      refine ⟨groups, rfl, ?_⟩
      rw [List.append_nil]
      exact h
  | cons key keys ih =>
      obtain ⟨index, hkey⟩ := hkeys key List.mem_cons_self
      obtain ⟨i, rfl, hfound⟩ := exists_fst_findKey hkey t.addition
      have hrest : ∀ k ∈ keys, ∃ index, r.keyIndex? k = some index := by
        intro k hk
        exact hkeys k (List.mem_cons_of_mem key hk)
      obtain ⟨sorted, hbatch, hsorts⟩ := ih (t := (r.addition key t).2) (h.addPlace hkey) hrest
      refine ⟨sorted, ?_, ?_⟩
      · rw [batchFrom_cons_of_ok hfound]
        rw [List.length_append, List.length_singleton] at hbatch
        exact hbatch
      · rw [List.append_assoc, List.singleton_append] at hsorts
        exact hsorts

/-- **A batch that stops** at a key that goes nowhere, after keys that all go somewhere. -/
theorem batchFrom_of_missing {before after : List String} {failure : Failure}
    (hbefore : ∀ key ∈ before, ∃ index, r.keyIndex? key = some index)
    (hkey : ∀ t, (r.findKey key t).1 = .error failure) (place : Nat) (groups : Groups) :
    r.batchFrom place (before ++ key :: after) groups t =
      (.error failure, r.afterAdding (before ++ [key]) t) := by
  induction before generalizing place groups t with
  | nil => exact batchFrom_cons_of_error (hkey t.addition) place after groups
  | cons k before ih =>
      obtain ⟨index, hk⟩ := hbefore k List.mem_cons_self
      obtain ⟨i, rfl, hfound⟩ := exists_fst_findKey hk t.addition
      have hrest : ∀ k ∈ before, ∃ index, r.keyIndex? k = some index := by
        intro k' hk'
        exact hbefore k' (List.mem_cons_of_mem k hk')
      rw [List.cons_append, batchFrom_cons_of_ok hfound, ih hrest]
      rfl

/-- Either all keys go somewhere, or there is a first one that does not. -/
theorem all_found_or_first_missing (r : Router η) (keys : List String) :
    (∀ key ∈ keys, ∃ index, r.keyIndex? key = some index) ∨
      ∃ before key after, keys = before ++ key :: after ∧
        (∀ k ∈ before, ∃ index, r.keyIndex? k = some index) ∧ r.keyIndex? key = none := by
  induction keys with
  | nil => exact .inl fun key hkey => (List.not_mem_nil hkey).elim
  | cons key keys ih =>
      cases hkey : r.keyIndex? key with
      | none => exact .inr ⟨[], key, keys, rfl, fun k hk => (List.not_mem_nil hk).elim, hkey⟩
      | some index =>
          rcases ih with hall | ⟨before, missing, after, rfl, hbefore, hmissing⟩
          · exact .inl (List.forall_mem_cons.2 ⟨⟨index, hkey⟩, hall⟩)
          · exact .inr ⟨key :: before, missing, after, rfl,
              List.forall_mem_cons.2 ⟨⟨index, hkey⟩, hbefore⟩, hmissing⟩

/-- A key that goes nowhere is found nowhere, whatever the counts are. -/
theorem exists_fst_findKey_eq_error (h : r.keyIndex? key = none) :
    ∃ failure, ∀ t, (r.findKey key t).1 = .error failure := by
  cases hname : Routing.shardName? key r.options.separator with
  | none =>
      simp only [keyIndex?, hname] at h
      cases h
  | some name =>
      simp only [keyIndex?, hname] at h
      refine ⟨.shardNotFound name, ?_⟩
      intro t
      exact fst_findKey_eq_error_iff.2 ⟨name, hname, h, rfl⟩

/-- **How a batch ends**: all keys are sorted, or it stops at the first that goes nowhere. -/
theorem batch_ends (r : Router η) (keys : List String) (t : Traffic) :
    ((∀ key ∈ keys, ∃ index, r.keyIndex? key = some index) ∧
      ∃ sorted, r.batch keys t = (.ok sorted, r.afterAdding keys t) ∧ r.Sorts keys sorted) ∨
    ∃ before key after failure, keys = before ++ key :: after ∧
      (∀ k ∈ before, ∃ index, r.keyIndex? k = some index) ∧
      (∀ t, (r.addition key t).1 = .error failure) ∧
      r.batch keys t = (.error failure, r.afterAdding (before ++ [key]) t) := by
  rcases r.all_found_or_first_missing keys with hall | ⟨before, key, after, rfl, hbefore, hkey⟩
  · exact .inl ⟨hall, batchFrom_of_found r.sorts_nil hall⟩
  · obtain ⟨failure, hfails⟩ := exists_fst_findKey_eq_error hkey
    refine .inr ⟨before, key, after, failure, rfl, hbefore, ?_,
      batchFrom_of_missing hbefore hfails 0 ∅⟩
    intro t
    rw [fst_addition, hfails]
    rfl

/-! ### All ways of asking -/

/-- An addition succeeds if the key goes somewhere. -/
theorem exists_addition_iff (r : Router η) (key : String) (t : Traffic) :
    (∃ handle, (r.addition key t).1 = .ok handle) ↔ ∃ index, r.keyIndex? key = some index := by
  constructor
  · rintro ⟨handle, h⟩
    obtain ⟨index, hkey, -⟩ := addition_eq_ok_iff.1 h
    exact ⟨index, hkey⟩
  · rintro ⟨index, hkey⟩
    obtain ⟨i, rfl, -⟩ := exists_fst_findKey hkey t.addition
    exact ⟨r.shard i, addition_eq_ok_iff.2 ⟨i.val, hkey, List.getElem?_eq_getElem i.isLt⟩⟩

/-- What is found for a name or key is answered as one shard. -/
theorem map_singleton (r : Router η) (found : Except Failure (Fin r.shards.length)) :
    (found.map fun index => [r.shard index]) = (found.map r.shard).map fun handle => [handle] := by
  cases found <;> rfl

/-- A deletion goes where the addition goes, and nowhere else. -/
theorem fst_deletion (r : Router η) (key : String) (t : Traffic) :
    (r.deletion key t).1 = (r.addition key t).1.map fun handle => [handle] := by
  rw [fst_addition, ← map_singleton, r.fst_findKey key t.addition t.deletion]
  rfl

/-- A query for the name that a key carries goes where the addition of the key goes, whatever other
filters there are. -/
theorem fst_query_of_shardName? {name : String}
    (h : Routing.shardName? key r.options.separator = some name) (filters : List String)
    (t : Traffic) :
    (r.query (name :: filters) t).1 = (r.addition key t).1.map fun handle => [handle] := by
  rw [fst_addition, ← map_singleton, findKey_eq_findName h, r.fst_findName name t.addition t.query]
  rfl

/-- **All ways of asking agree.**  A batch succeeds exactly if every addition does.  Then its groups
sort the places of the keys, each place is in just one group, and the counts are those after adding
the entities one by one.  Otherwise it fails as the first failing addition does, and the counts are
those after the additions up to this one.  An addition goes to the shard with the number of the key,
a deletion to the same shard only, and so does a query for the name that the key carries. -/
theorem entries_agree (r : Router η) (keys : List String) (t : Traffic) :
    ((∃ groups, (r.batch keys t).1 = .ok groups) ↔
      ∀ key ∈ keys, ∃ handle, (r.addition key t).1 = .ok handle) ∧
    (∀ groups, (r.batch keys t).1 = .ok groups →
      r.Sorts keys groups ∧
        (∀ place, place < keys.length ↔ ∃ index, InGroup groups index place ∧
          ∀ other, InGroup groups other place → other = index) ∧
        (r.batch keys t).2 = r.afterAdding keys t) ∧
    (∀ failure, (r.batch keys t).1 = .error failure →
      ∃ before key after, keys = before ++ key :: after ∧
        (∀ earlier ∈ before, ∃ handle, (r.addition earlier t).1 = .ok handle) ∧
        (r.addition key t).1 = .error failure ∧
        (r.batch keys t).2 = r.afterAdding (before ++ [key]) t) ∧
    ∀ key,
      (∀ handle, (r.addition key t).1 = .ok handle ↔
        ∃ index, r.keyIndex? key = some index ∧ r.shards[index]? = some handle) ∧
      (r.deletion key t).1 = (r.addition key t).1.map (fun handle => [handle]) ∧
      ∀ name filters, Routing.shardName? key r.options.separator = some name →
        (r.query (name :: filters) t).1 = (r.addition key t).1.map fun handle => [handle] := by
  simp only [exists_addition_iff]
  refine ⟨?_, ?_, ?_, ?_⟩
  · rcases r.batch_ends keys t with ⟨hall, sorted, hbatch, -⟩ |
      ⟨before, key, after, failure, rfl, -, hfails, hbatch⟩
    · rw [hbatch]
      exact iff_of_true ⟨sorted, rfl⟩ hall
    · rw [hbatch]
      refine iff_of_false nofun ?_
      intro hall
      obtain ⟨handle, hadded⟩ := (r.exists_addition_iff key t).2 (hall key (by simp))
      rw [hfails] at hadded
      cases hadded
  · intro groups hgroups
    rcases r.batch_ends keys t with ⟨hall, sorted, hbatch, hsorts⟩ |
      ⟨before, key, after, failure, -, -, -, hbatch⟩
    · rw [hbatch] at hgroups ⊢
      cases hgroups
      exact ⟨hsorts, hsorts.existsUnique hall, rfl⟩
    · rw [hbatch] at hgroups
      cases hgroups
  · intro failure hfailure
    rcases r.batch_ends keys t with ⟨-, sorted, hbatch, -⟩ |
      ⟨before, key, after, found, hkeys, hbefore, hfails, hbatch⟩
    · rw [hbatch] at hfailure
      cases hfailure
    · rw [hbatch] at hfailure ⊢
      cases hfailure
      exact ⟨before, key, after, hkeys, hbefore, hfails t, rfl⟩
  · intro key
    refine ⟨fun handle => addition_eq_ok_iff, r.fst_deletion key t, ?_⟩
    intro name filters hname
    exact fst_query_of_shardName? hname filters t

/-- A router with one shard that has a name. -/
def oneNamed : Router String :=
  ⟨.standard, ["default", "first"], nameTable 2 (.ofList [(1, "a")]), by decide⟩

/-- The first and the third place are under the named shard, the second under the default shard. -/
def threePlaces : Groups := addPlace (addPlace (addPlace ∅ 1 0) 0 1) 1 2

theorem entries_agree_oneNamed :
    (oneNamed.batch ["x!!a", "y", "z!!a"] .zero).1 = .ok threePlaces ∧
      oneNamed.Sorts ["x!!a", "y", "z!!a"] threePlaces ∧
      (oneNamed.batch ["x!!a", "y!!b", "z"] .zero).1 = .error (.shardNotFound "b") ∧
      (∃ before key after, ["x!!a", "y!!b", "z"] = before ++ key :: after ∧
        (oneNamed.addition key .zero).1 = .error (.shardNotFound "b") ∧
        (oneNamed.batch ["x!!a", "y!!b", "z"] .zero).2 =
          oneNamed.afterAdding (before ++ [key]) .zero) ∧
      (oneNamed.query ["a", "b"] .zero).1 =
        (oneNamed.addition "x!!a" .zero).1.map fun handle => [handle] := by
  have hsorted : (oneNamed.batch ["x!!a", "y", "z!!a"] .zero).1 = .ok threePlaces := by
    rfl
  have hstopped : (oneNamed.batch ["x!!a", "y!!b", "z"] .zero).1 =
      .error (.shardNotFound "b") := by
    rfl
  have hcarries : Routing.shardName? "x!!a" "!!" = some "a" := by decide +kernel
  obtain ⟨-, hsorts, -, hkeys⟩ := entries_agree oneNamed ["x!!a", "y", "z!!a"] .zero
  obtain ⟨-, -, hstops, -⟩ := entries_agree oneNamed ["x!!a", "y!!b", "z"] .zero
  obtain ⟨before, key, after, hsplit, -, hfails, hcounts⟩ := hstops _ hstopped
  obtain ⟨-, -, hquery⟩ := hkeys "x!!a"
  exact ⟨hsorted, (hsorts _ hsorted).1, hstopped, ⟨before, key, after, hsplit, hfails, hcounts⟩,
    hquery "a" ["b"] hcarries⟩

end Router

end Tenancy.Routing
