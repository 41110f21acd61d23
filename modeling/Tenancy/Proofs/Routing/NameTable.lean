/-
**Names and shards, one to one.**

The table of names is built entry by entry, in the order of the shards: entries for the default
shard and for shards that do not exist are left out, and a name that was given before is moved to
the later shard.  So the shard of a name is the last one that has it.  No shard has two names, as
names are given by the number of the shard.  Therefore a search through the table for the name of a
shard finds the same name in whatever order the table is searched, and fewer shards have a name than
there are.

Main definitions:

* `Tenancy.Routing.shardsNamed` — the shards that entries give a name to;
* `Tenancy.Routing.Tells` — **a table that tells entries**;
* `Tenancy.Routing.nameAmong` — the name of a shard that a search through entries finds;
* `Tenancy.Routing.Router.namedShards` — the shards that have a name;
* `Tenancy.Routing.Router.queryIndex?` — the number of the shard that a query goes to.

Main results:

* `Tenancy.Routing.Tells.addName`, `Tenancy.Routing.Tells.foldl` — one more entry, and all of them;
* `Tenancy.Routing.nameTable_eq_some_iff` — **the shard of a name is the last one that has it**;
* `Tenancy.Routing.nameAmong_eq_some_iff` — what a search finds;
* `Tenancy.Routing.Router.names_one_to_one` — **names and shards, one to one**.
-/

import Mathlib.Data.Finset.Card
import Mathlib.Order.Bounds.Basic
import Tenancy.Proofs.Routing.Batch
import Tenancy.Proofs.Routing.Properties
import Tenancy.Proofs.Routing.Tagged

set_option relaxedAutoImplicit false
set_option autoImplicit false

universe u

namespace Tenancy.Routing

/-! ### The table, entry by entry -/

variable {count : Nat} {entries : List (Nat × String)} {name : String} {index : Nat}

/-- One more entry, if its shard exists and is not the default shard. -/
def addName (count : Nat) (table : Std.ExtTreeMap String (Fin count)) (entry : Nat × String) :
    Std.ExtTreeMap String (Fin count) :=
  if h : 0 < entry.1 ∧ entry.1 < count then table.insert entry.2 ⟨entry.1, h.2⟩ else table

theorem nameTable_eq_foldl (count : Nat) (names : Names) :
    nameTable count names = names.toList.foldl (addName count) ∅ := rfl

/-- **The shards that entries give a name to**, among those that can have one. -/
def shardsNamed (count : Nat) (entries : List (Nat × String)) (name : String) : Set Nat :=
  {index | 0 < index ∧ index < count ∧ (index, name) ∈ entries}

/-- An entry that is left out, or for another name, gives the name to no shard. -/
theorem shardsNamed_concat {other : String} (h : ¬ (0 < index ∧ index < count ∧ name = other)) :
    shardsNamed count (entries ++ [(index, name)]) other = shardsNamed count entries other := by
  ext i
  simp only [shardsNamed, Set.mem_ofPred_eq, List.mem_append, List.mem_singleton, Prod.mk.injEq]
  constructor
  · rintro ⟨hpos, hlt, hmem | ⟨rfl, rfl⟩⟩
    · exact ⟨hpos, hlt, hmem⟩
    · exact absurd ⟨hpos, hlt, rfl⟩ h
  · rintro ⟨hpos, hlt, hmem⟩
    exact ⟨hpos, hlt, .inl hmem⟩

/-- **A table that tells entries**: the shard of a name is the last one that they give it to. -/
def Tells (entries : List (Nat × String)) (table : Std.ExtTreeMap String (Fin count)) : Prop :=
  ∀ name index, (table[name]?).map Fin.val = some index ↔
    IsGreatest (shardsNamed count entries name) index

theorem tells_nil : Tells [] (∅ : Std.ExtTreeMap String (Fin count)) := by
  intro name index
  rw [Std.ExtTreeMap.getElem?_empty, Option.map_none]
  refine iff_of_false nofun ?_
  rintro ⟨⟨-, -, hmem⟩, -⟩
  exact List.not_mem_nil hmem

/-- **One more entry**, for a shard behind all others. -/
theorem Tells.addName {table : Std.ExtTreeMap String (Fin count)} (h : Tells entries table)
    (hlast : ∀ entry ∈ entries, entry.1 < index) (name : String) :
    Tells (entries ++ [(index, name)]) (addName count table (index, name)) := by
  intro other i
  by_cases hin : 0 < index ∧ index < count
  · rw [Routing.addName, dif_pos hin, Std.ExtTreeMap.getElem?_insert]
    by_cases hname : name = other
    · subst hname
      have hgreatest : IsGreatest (shardsNamed count (entries ++ [(index, name)]) name) index := by
        refine ⟨⟨hin.1, hin.2, by simp⟩, ?_⟩
        rintro j ⟨-, -, hj⟩
        rcases List.mem_append.1 hj with hj | hj
        · exact Nat.le_of_lt (hlast _ hj)
        · cases List.mem_singleton.1 hj
          exact Nat.le_refl _
      rw [if_pos Std.ReflCmp.compare_self, Option.map_some, Option.some.injEq]
      constructor
      · rintro rfl
        exact hgreatest
      · exact fun hi => hgreatest.unique hi
    · have hne : ¬ compare name other = .eq :=
        fun heq => hname (Std.LawfulEqCmp.compare_eq_iff_eq.1 heq)
      rw [if_neg hne, shardsNamed_concat fun hnew => hname hnew.2.2]
      exact h other i
  · rw [Routing.addName, dif_neg hin, shardsNamed_concat fun hnew => hin ⟨hnew.1, hnew.2.1⟩]
    exact h other i

/-- **All entries**, in the order of their shards: `done` is told, and `rest` is to come. -/
theorem Tells.foldl {done rest : List (Nat × String)} {table : Std.ExtTreeMap String (Fin count)}
    (h : Tells done table)
    (hascending : (done ++ rest).Pairwise fun entry later => entry.1 < later.1) :
    Tells (done ++ rest) (rest.foldl (Routing.addName count) table) := by
  induction rest generalizing done table with
  | nil =>
      rw [List.append_nil]
      exact h
  | cons entry rest ih =>
      obtain ⟨index, name⟩ := entry
      obtain ⟨-, -, hbetween⟩ := List.pairwise_append.1 hascending
      have hlast : ∀ earlier ∈ done, earlier.1 < index :=
        fun earlier hearlier => hbetween earlier hearlier _ List.mem_cons_self
      rw [List.append_cons] at hascending ⊢
      exact ih (h.addName hlast name) hascending

/-- **The shard of a name is the last one that has it.** -/
theorem nameTable_eq_some_iff (count : Nat) (names : Names) (name : String) (index : Nat) :
    ((nameTable count names)[name]?).map Fin.val = some index ↔
      IsGreatest {i | 0 < i ∧ i < count ∧ names.name? i = some name} index := by
  have htells : Tells names.toList (nameTable count names) := by
    rw [nameTable_eq_foldl]
    exact tells_nil.foldl names.ascending_toList
  have hset : shardsNamed count names.toList name =
      {i | 0 < i ∧ i < count ∧ names.name? i = some name} := by
    ext i
    rw [shardsNamed, Set.mem_ofPred_eq, Names.mem_toList_iff]
    rfl
  rw [htells name index, hset]

/-! ### Searching for the name of a shard -/

/-- The name of a shard that a search through entries finds first. -/
def nameAmong (entries : List (String × Fin count)) (index : Nat) : Option String :=
  (entries.find? fun entry => entry.2.val == index).map Prod.fst

/-- **What a search finds**, if no shard is entered under two names. -/
theorem nameAmong_eq_some_iff {entries : List (String × Fin count)}
    (hinj : ∀ entry ∈ entries, ∀ other ∈ entries, entry.2 = other.2 → entry.1 = other.1) :
    nameAmong entries index = some name ↔ ∃ i : Fin count, (name, i) ∈ entries ∧ i.val = index := by
  rw [nameAmong, Option.map_eq_some_iff]
  constructor
  · rintro ⟨⟨found, i⟩, hfind, rfl⟩
    exact ⟨i, List.mem_of_find?_eq_some hfind, by simpa using List.find?_some hfind⟩
  · rintro ⟨i, hmem, rfl⟩
    -- something is found, and it has the name, since it is entered for the same shard
    have hsome : (entries.find? fun entry => entry.2.val == i.val).isSome = true :=
      List.find?_isSome.2 ⟨(name, i), hmem, by simp⟩
    obtain ⟨entry, hfind⟩ := Option.isSome_iff_exists.1 hsome
    have hshard : entry.2 = i := Fin.ext (by simpa using List.find?_some hfind)
    exact ⟨entry, hfind, hinj entry (List.mem_of_find?_eq_some hfind) (name, i) hmem hshard⟩

namespace Router

variable {η : Type u} {r : Router η} {shards : List η} {options : Options}

theorem mem_byName_iff {i : Fin r.shards.length} :
    (name, i) ∈ r.byName.toList ↔ r.shardIndex? name = some i.val := by
  rw [Std.ExtTreeMap.mem_toList_iff_getElem?_eq_some, shardIndex?, Option.map_eq_some_iff]
  constructor
  · intro h
    exact ⟨i, h, rfl⟩
  · rintro ⟨j, hj, hval⟩
    rw [hj, Fin.ext hval]

/-- No shard is entered under two names. -/
theorem Over.eq_of_mem_byName (h : r.Over shards options) :
    ∀ entry ∈ r.byName.toList, ∀ other ∈ r.byName.toList, entry.2 = other.2 →
      entry.1 = other.1 := by
  rintro ⟨name, i⟩ hentry ⟨name', j⟩ hother hshard
  cases hshard
  exact h.shardIndex?_inj (mem_byName_iff.1 hother) (mem_byName_iff.1 hentry)

/-- **The order of a search does not matter.** -/
theorem Over.nameAmong_eq_some_iff (h : r.Over shards options)
    {entries : List (String × Fin r.shards.length)} (hentries : entries.Perm r.byName.toList) :
    nameAmong entries index = some name ↔ r.shardIndex? name = some index := by
  rw [Routing.nameAmong_eq_some_iff]
  · simp only [hentries.mem_iff, mem_byName_iff]
    constructor
    · rintro ⟨i, hi, rfl⟩
      exact hi
    · intro hindex
      exact ⟨⟨index, shardIndex?_lt hindex⟩, hindex, rfl⟩
  · intro entry hentry other hother
    exact h.eq_of_mem_byName entry (hentries.mem_iff.1 hentry) other (hentries.mem_iff.1 hother)

/-! ### Shards that have a name -/

/-- **The shards that have a name.** -/
def namedShards (r : Router η) : Finset Nat :=
  (r.byName.toList.map fun entry => entry.2.val).toFinset

theorem mem_namedShards : index ∈ r.namedShards ↔ ∃ name, r.shardIndex? name = some index := by
  simp only [namedShards, List.mem_toFinset, List.mem_map, Prod.exists, mem_byName_iff]
  constructor
  · rintro ⟨name, i, hname, rfl⟩
    exact ⟨name, hname⟩
  · rintro ⟨name, hname⟩
    exact ⟨name, ⟨index, shardIndex?_lt hname⟩, hname, rfl⟩

/-- If the default shard has no name, fewer shards have a name than there are. -/
theorem card_namedShards (h : ∀ name index, r.shardIndex? name = some index → index ≠ 0) :
    r.namedShards.card + 1 ≤ r.shards.length := by
  have hzero : 0 ∉ r.namedShards := by
    intro hmem
    obtain ⟨name, hname⟩ := mem_namedShards.1 hmem
    exact h name 0 hname rfl
  have hsubset : insert 0 r.namedShards ⊆ Finset.range r.shards.length := by
    intro index hmem
    rw [Finset.mem_range]
    rcases Finset.mem_insert.1 hmem with rfl | hmem
    · exact r.nonempty
    · obtain ⟨name, hname⟩ := mem_namedShards.1 hmem
      exact shardIndex?_lt hname
  have hcard := Finset.card_le_card hsubset
  rw [Finset.card_insert_of_notMem hzero, Finset.card_range] at hcard
  exact hcard

/-! ### Every lookup goes to a shard or names none -/

/-- A key that goes to a shard is stored in and deleted from one that exists. -/
theorem sends_of_keyIndex? {key : String} (h : r.keyIndex? key = some index) :
    r.Sends key index := by
  obtain ⟨i, rfl, -⟩ := exists_fst_findKey h .zero
  have hhandle : r.shards[i.val]? = some (r.shard i) := List.getElem?_eq_getElem i.isLt
  have hadded : ∀ t, (r.addition key t).1 = .ok (r.shard i) :=
    fun t => addition_eq_ok_iff.2 ⟨i.val, h, hhandle⟩
  refine ⟨r.shard i, hhandle, fun t => ⟨hadded t, ?_⟩⟩
  rw [fst_deletion, hadded]
  rfl

/-- A key that goes nowhere names no shard. -/
theorem exists_misses {key : String} (h : r.keyIndex? key = none) : ∃ name, r.Misses key name := by
  rw [keyIndex?] at h
  cases hkey : Routing.shardName? key r.options.separator with
  | none =>
      rw [hkey] at h
      cases h
  | some name =>
      rw [hkey] at h
      exact ⟨name, misses_of_shardName? hkey h⟩

/-- The number of the shard that a query goes to: that of the first filter, or zero. -/
def queryIndex? (r : Router η) : List String → Option Nat
  | [] => some 0
  | name :: _ => r.shardIndex? name

/-- A query that goes to a shard runs against one that exists. -/
theorem query_of_queryIndex? {filters : List String} (h : r.queryIndex? filters = some index) :
    ∃ handle, r.shards[index]? = some handle ∧ ∀ t, (r.query filters t).1 = .ok [handle] := by
  cases filters with
  | nil =>
      cases h
      exact ⟨r.defaultShard, List.getElem?_eq_getElem r.nonempty, fun t => rfl⟩
  | cons name filters =>
      obtain ⟨i, hi, rfl⟩ := Option.map_eq_some_iff.1 h
      refine ⟨r.shard i, List.getElem?_eq_getElem i.isLt, fun t => ?_⟩
      simp only [query, findName, hi]
      rfl

/-- A query that goes nowhere names no shard. -/
theorem exists_query_misses {filters : List String} (h : r.queryIndex? filters = none) :
    ∃ name, ∀ t, (r.query filters t).1 = .error (.shardNotFound name) := by
  cases filters with
  | nil => cases h
  | cons name filters =>
      refine ⟨name, fun t => ?_⟩
      simp only [query, findName, Option.map_eq_none_iff.1 h]
      rfl

/-- **Names and shards, one to one.**  A router is built over any shards that there are, and fewer
of them have a name than there are.  The shard of a name is the last one with that name, never the
default shard, and always one that exists; the name of a shard is the one that leads to it, in
whatever order the names are searched.  So additions, deletions and queries go to a shard that
exists or fail for want of a shard with the name. -/
theorem names_one_to_one (hshards : shards ≠ []) (hoptions : options.separator ≠ "")
    (names : Names) :
    ∃ r, Router.new shards names options = .ok r ∧ r.shards = shards ∧ r.options = options ∧
      r.namedShards.card + 1 ≤ shards.length ∧
      (∀ name index, r.shardIndex? name = some index ↔
        IsGreatest {i | 0 < i ∧ i < shards.length ∧ names.name? i = some name} index) ∧
      (∀ name index, r.shardIndex? name = some index → index ≠ 0 ∧ index < shards.length) ∧
      (∀ index name, r.shardName? index = some name ↔ r.shardIndex? name = some index) ∧
      (∀ entries : List (String × Fin r.shards.length), entries.Perm r.byName.toList →
        ∀ index, nameAmong entries index = r.shardName? index) ∧
      (∀ key, (∀ index, r.keyIndex? key = some index → r.Sends key index) ∧
        (r.keyIndex? key = none → ∃ name, r.Misses key name)) ∧
      ∀ filters,
        (∀ index, r.queryIndex? filters = some index →
          ∃ handle, r.shards[index]? = some handle ∧ ∀ t, (r.query filters t).1 = .ok [handle]) ∧
        (r.queryIndex? filters = none →
          ∃ name, ∀ t, (r.query filters t).1 = .error (.shardNotFound name)) := by
  have hpos : 0 < shards.length := List.length_pos_iff.2 hshards
  have hnew : Router.new shards names options =
      .ok ⟨options, shards, nameTable shards.length names, hpos⟩ := by
    rw [Router.new, if_neg hoptions, dif_pos hpos]
  obtain ⟨r, hr, hrshards, hroptions, hindex⟩ : ∃ r : Router η,
      Router.new shards names options = .ok r ∧ r.shards = shards ∧ r.options = options ∧
        ∀ name index, r.shardIndex? name = some index ↔
          IsGreatest {i | 0 < i ∧ i < shards.length ∧ names.name? i = some name} index :=
    ⟨_, hnew, rfl, rfl, nameTable_eq_some_iff shards.length names⟩
  have hover : r.Over shards options := .new names hr
  have hbounds : ∀ name index, r.shardIndex? name = some index →
      index ≠ 0 ∧ index < shards.length := by
    intro name index h
    obtain ⟨⟨hzero, hlt, -⟩, -⟩ := (hindex name index).1 h
    exact ⟨Nat.ne_of_gt hzero, hlt⟩
  refine ⟨r, hr, hrshards, hroptions, ?_, hindex, hbounds, ?_, ?_, ?_, ?_⟩
  · rw [← hrshards]
    exact card_namedShards fun name index h => (hbounds name index h).1
  · intro index name
    exact hover.nameAmong_eq_some_iff (.refl _)
  · intro entries hentries index
    refine Option.ext fun name => ?_
    rw [hover.nameAmong_eq_some_iff hentries]
    exact (hover.nameAmong_eq_some_iff (.refl _)).symm
  · intro key
    exact ⟨fun index => sends_of_keyIndex?, exists_misses⟩
  · intro filters
    exact ⟨fun index => query_of_queryIndex?, exists_query_misses⟩

/-- Names for the default shard, twice the same, and for a shard that does not exist. -/
def oddNames : Names := .ofList [(0, "zero"), (1, "same"), (2, "same"), (9, "nine")]

theorem names_one_to_one_oddNames :
    ∃ r, Router.new ["default", "first", "second"] oddNames .standard = .ok r ∧
      r.shardIndex? "same" = some 2 ∧ r.shardName? 1 = none ∧ r.shardIndex? "zero" = none := by
  have hshards : ["default", "first", "second"] ≠ [] := by decide
  have hoptions : Options.standard.separator ≠ "" := by decide
  obtain ⟨r, hnew, -, -, -, hindex, -, hname, -⟩ := names_one_to_one hshards hoptions oddNames
  have hsecond : oddNames.name? 2 = some "same" := by decide +kernel
  have hfirst : oddNames.name? 1 = some "same" := by decide +kernel
  refine ⟨r, hnew, (hindex "same" 2).2 ⟨⟨by decide, by decide, hsecond⟩, ?_⟩, ?_, ?_⟩
  · rintro index ⟨-, hlt, -⟩
    exact Nat.le_of_lt_succ hlt
  · -- the name of the first shard leads to the second
    rw [Option.eq_none_iff_forall_ne_some]
    intro name h
    obtain ⟨⟨-, -, hgiven⟩, hlast⟩ := (hindex name 1).1 ((hname 1 name).1 h)
    rw [hfirst] at hgiven
    cases hgiven
    exact absurd (hlast ⟨by decide, by decide, hsecond⟩) (by decide)
  · rw [Option.eq_none_iff_forall_ne_some]
    intro index h
    obtain ⟨⟨hpos, hlt, hgiven⟩, -⟩ := (hindex "zero" index).1 h
    have hcases : index = 1 ∨ index = 2 := by
      rw [List.length_cons, List.length_cons, List.length_singleton] at hlt
      omega
    rcases hcases with rfl | rfl
    · rw [hfirst] at hgiven
      exact absurd (Option.some.inj hgiven) (by decide)
    · rw [hsecond] at hgiven
      exact absurd (Option.some.inj hgiven) (by decide)

end Router

end Tenancy.Routing
