/-
**The counts of a router classify its lookups.**

To answer, a router looks up one key or filter after the other; a batch looks up its keys until one
goes nowhere.  Every lookup is counted once when it begins, and at most once more when it ends: as
served by the default shard or as a miss.  No name leads to the default shard.  So over any run the
lookups that went to the default shard are those without a name, the misses are those that went
nowhere, and what was asked is all of these together with the lookups that went to another shard.  A
call ends with its first miss; so misses are also the answers that name no shard.  Whatever was
counted before, the answers are the same.

Main definitions:

* `Tenancy.Routing.Router.resolved` — **where the lookups of a call go**;
* `Tenancy.Routing.Router.ask` — a run of calls, with the answers and the counts after it;
* `Tenancy.Routing.Traffic.Classifies` — **counts that tell where lookups went**.

Main results:

* `Tenancy.Routing.Traffic.Begins.findKey` — one lookup of a key;
* `Tenancy.Routing.Router.classifies_look`, `Tenancy.Routing.Router.classifies_ask` — one call, and
  a run of calls;
* `Tenancy.Routing.Router.count_none_resolved` — a call has a miss exactly if it answers so;
* `Tenancy.Routing.Router.traffic_classifies` — **the counts classify the lookups**.
-/

import Tenancy.Proofs.Routing.NameTable

set_option relaxedAutoImplicit false
set_option autoImplicit false

universe u v w

namespace Tenancy.Routing

/-! ### Counts that tell where lookups went -/

namespace Traffic

/-- How many lookups were begun. -/
def asked (t : Traffic) : Nat := t.additions + t.deletions + t.queries

/-- **The counts `t'` tell of `t` and where the lookups since went**: to the shard with a number, or
nowhere. -/
structure Classifies (t t' : Traffic) (found : List (Option Nat)) : Prop where
  asked : t'.asked = t.asked + found.length
  defaultRoutes : t'.defaultRoutes = t.defaultRoutes + found.count (some 0)
  misses : t'.misses = t.misses + found.count none

/-- One more lookup was begun, and it has not ended. -/
structure Begins (t t' : Traffic) : Prop where
  asked : t'.asked = t.asked + 1
  defaultRoutes : t'.defaultRoutes = t.defaultRoutes
  misses : t'.misses = t.misses

variable {t t' t'' : Traffic} {found found' : List (Option Nat)}

theorem Classifies.nil (t : Traffic) : t.Classifies t [] := ⟨rfl, rfl, rfl⟩

/-- Lookups after others. -/
theorem Classifies.append (h : t.Classifies t' found) (h' : t'.Classifies t'' found') :
    t.Classifies t'' (found ++ found') where
  asked := by rw [h'.asked, h.asked, List.length_append, Nat.add_assoc]
  defaultRoutes := by rw [h'.defaultRoutes, h.defaultRoutes, List.count_append, Nat.add_assoc]
  misses := by rw [h'.misses, h.misses, List.count_append, Nat.add_assoc]

theorem begins_addition (t : Traffic) : t.Begins t.addition where
  asked := by simp only [Traffic.asked, addition]; omega
  defaultRoutes := rfl
  misses := rfl

theorem begins_deletion (t : Traffic) : t.Begins t.deletion where
  asked := by simp only [Traffic.asked, deletion]; omega
  defaultRoutes := rfl
  misses := rfl

theorem begins_query (t : Traffic) : t.Begins t.query where
  asked := by simp only [Traffic.asked, query]; omega
  defaultRoutes := rfl
  misses := rfl

/-- A lookup without a name ends at the default shard. -/
theorem Begins.defaultRoute (h : t.Begins t') : t.Classifies t'.defaultRoute [some 0] where
  asked := h.asked
  defaultRoutes := congrArg (· + 1) h.defaultRoutes
  misses := h.misses

variable {η : Type u} {r : Router η}

/-- **A lookup of a name** ends where the name leads, which is not the default shard. -/
theorem Begins.findName (h : t.Begins t') (hzero : ∀ name, r.shardIndex? name ≠ some 0)
    (name : String) : t.Classifies (r.findName name t').2 [r.shardIndex? name] := by
  have hne := hzero name
  rw [Router.findName]
  unfold Router.shardIndex? at hne ⊢
  cases hname : r.byName[name]? with
  | none => exact ⟨h.asked, h.defaultRoutes, congrArg (· + 1) h.misses⟩
  | some index =>
      rw [hname] at hne
      have hcount : [Option.map Fin.val (some index)].count (some 0) = 0 := by
        rw [List.count_eq_zero, List.mem_singleton]
        exact Ne.symm hne
      exact ⟨h.asked, by rw [hcount]; exact h.defaultRoutes, h.misses⟩

/-- **A lookup of a key** ends where the key goes. -/
theorem Begins.findKey (h : t.Begins t') (hzero : ∀ name, r.shardIndex? name ≠ some 0)
    (key : String) : t.Classifies (r.findKey key t').2 [r.keyIndex? key] := by
  rw [Router.keyIndex?]
  cases hkey : Routing.shardName? key r.options.separator with
  | none =>
      rw [Router.findKey_eq_default hkey]
      exact h.defaultRoute
  | some name =>
      rw [Router.findKey_eq_findName hkey]
      exact h.findName hzero name

end Traffic

namespace Router

variable {η : Type u} {r : Router η} {t t' : Traffic} {shards : List η} {options : Options}

/-! ### Where lookups go -/

/-- Where the lookups of a batch go: those of its keys, up to the first that goes nowhere. -/
def batchResolved (r : Router η) : List String → List (Option Nat)
  | [] => []
  | key :: keys =>
      match r.keyIndex? key with
      | some index => some index :: r.batchResolved keys
      | none => [none]

/-- **Where the lookups of a call go**: each to the shard with a number, or nowhere. -/
def resolved (r : Router η) : Lookup → List (Option Nat)
  | .addition key => [r.keyIndex? key]
  | .deletion key => [r.keyIndex? key]
  | .query filters => [r.queryIndex? filters]
  | .batch keys => r.batchResolved keys

theorem batchResolved_of_found {keys : List String}
    (h : ∀ key ∈ keys, ∃ index, r.keyIndex? key = some index) :
    r.batchResolved keys = keys.map r.keyIndex? := by
  induction keys with
  | nil => rfl
  | cons key keys ih =>
      obtain ⟨⟨index, hkey⟩, hkeys⟩ := List.forall_mem_cons.1 h
      rw [batchResolved, hkey, List.map_cons, hkey, ih hkeys]

/-- A batch that fails at a place makes one lookup more than there are keys before it. -/
theorem batchResolved_of_missing {before : List String} {key : String}
    (hbefore : ∀ k ∈ before, ∃ index, r.keyIndex? k = some index)
    (hkey : r.keyIndex? key = none) (after : List String) :
    r.batchResolved (before ++ key :: after) = (before ++ [key]).map r.keyIndex? := by
  induction before with
  | nil => rw [List.nil_append, List.nil_append, batchResolved, hkey, List.map_singleton, hkey]
  | cons k before ih =>
      obtain ⟨⟨index, hk⟩, hrest⟩ := List.forall_mem_cons.1 hbefore
      rw [List.cons_append, batchResolved, hk, ih hrest, List.cons_append, List.map_cons, hk]

/-- **No name leads to the default shard.** -/
theorem Over.shardIndex?_ne_zero (h : r.Over shards options) (name : String) :
    r.shardIndex? name ≠ some 0 := by
  obtain ⟨-, names, hpos, rfl⟩ := h.exists_eq
  intro hzero
  obtain ⟨⟨hlt, -, -⟩, -⟩ := (nameTable_eq_some_iff shards.length names name 0).1 hzero
  exact Nat.lt_irrefl 0 hlt

/-! ### Answers that name no shard -/

/-- The answer says that no shard has the name. -/
def missed {α : Type v} : Except Failure α → Bool
  | .error (.shardNotFound _) => true
  | _ => false

theorem missed_map {α : Type v} {β : Type w} (f : α → β) (answer : Except Failure α) :
    missed (answer.map f) = missed answer := by
  cases answer with
  | ok a => rfl
  | error failure => cases failure <;> rfl

theorem missed_findName (r : Router η) (name : String) (t : Traffic) :
    missed (r.findName name t).1 = (r.shardIndex? name).isNone := by
  rw [findName, shardIndex?]
  cases r.byName[name]? <;> rfl

theorem missed_findKey (r : Router η) (key : String) (t : Traffic) :
    missed (r.findKey key t).1 = (r.keyIndex? key).isNone := by
  rw [findKey, keyIndex?]
  cases Routing.shardName? key r.options.separator with
  | none => rfl
  | some name => exact r.missed_findName name t

/-- An addition fails only if the key goes nowhere, for want of a shard with its name. -/
theorem addition_eq_error {key : String} {failure : Failure}
    (h : (r.addition key t).1 = .error failure) :
    r.keyIndex? key = none ∧ ∃ name, failure = .shardNotFound name := by
  rw [fst_addition] at h
  cases hfound : (r.findKey key t.addition).1 with
  | ok index =>
      rw [hfound] at h
      cases h
  | error other =>
      rw [hfound] at h
      cases h
      obtain ⟨name, hname, hnone, rfl⟩ := fst_findKey_eq_error_iff.1 hfound
      refine ⟨?_, name, rfl⟩
      rw [keyIndex?, hname]
      exact hnone

theorem count_none_singleton (found : Option Nat) :
    [found].count none = if found.isNone then 1 else 0 := by
  cases found <;> rfl

theorem count_none_of_found {keys : List String}
    (h : ∀ key ∈ keys, ∃ index, r.keyIndex? key = some index) :
    (keys.map r.keyIndex?).count none = 0 := by
  rw [List.count_eq_zero, List.mem_map]
  rintro ⟨key, hmem, hnone⟩
  obtain ⟨index, hkey⟩ := h key hmem
  rw [hkey] at hnone
  cases hnone

/-- **A call has a miss exactly if it answers so**, and then only one. -/
theorem count_none_resolved (r : Router η) (call : Lookup) (t : Traffic) :
    (r.resolved call).count none = if missed (r.look call t).1 then 1 else 0 := by
  cases call with
  | addition key =>
      have hmissed : missed (r.look (.addition key) t).1 = (r.keyIndex? key).isNone := by
        rw [← r.missed_findKey key t.addition, ← missed_map r.shard]
        exact missed_map _ _
      rw [hmissed, resolved, count_none_singleton]
  | deletion key =>
      have hmissed : missed (r.look (.deletion key) t).1 = (r.keyIndex? key).isNone := by
        rw [← r.missed_findKey key t.deletion, ← missed_map fun index => [r.shard index]]
        exact missed_map _ _
      rw [hmissed, resolved, count_none_singleton]
  | query filters =>
      have hmissed : missed (r.look (.query filters) t).1 = (r.queryIndex? filters).isNone := by
        cases filters with
        | nil => rfl
        | cons name filters =>
            rw [queryIndex?, ← r.missed_findName name t.query,
              ← missed_map fun index => [r.shard index]]
            exact missed_map _ _
      rw [hmissed, resolved, count_none_singleton]
  | batch keys =>
      have hmissed : missed (r.look (.batch keys) t).1 = missed (r.batch keys t).1 :=
        missed_map _ _
      rw [hmissed, resolved]
      rcases r.batch_ends keys t with
        ⟨hall, sorted, hbatch, -⟩ | ⟨before, key, after, failure, rfl, hbefore, hfails, hbatch⟩
      · rw [hbatch, batchResolved_of_found hall, count_none_of_found hall]
        rfl
      · obtain ⟨hkey, name, rfl⟩ := addition_eq_error (hfails t)
        rw [hbatch, batchResolved_of_missing hbefore hkey, List.map_append, List.count_append,
          count_none_of_found hbefore, List.map_singleton, hkey]
        rfl

/-! ### The counts after a call -/

/-- The counts after adding entities one by one tell where the keys went. -/
theorem classifies_afterAdding (hzero : ∀ name, r.shardIndex? name ≠ some 0) (keys : List String)
    (t : Traffic) : t.Classifies (r.afterAdding keys t) (keys.map r.keyIndex?) := by
  induction keys generalizing t with
  | nil => exact .nil t
  | cons key keys ih => exact (t.begins_addition.findKey hzero key).append (ih _)

/-- **The counts after a call tell where its lookups went.** -/
theorem classifies_look (hzero : ∀ name, r.shardIndex? name ≠ some 0) (call : Lookup)
    (t : Traffic) : t.Classifies (r.look call t).2 (r.resolved call) := by
  cases call with
  | addition key => exact t.begins_addition.findKey hzero key
  | deletion key => exact t.begins_deletion.findKey hzero key
  | query filters =>
      cases filters with
      | nil => exact t.begins_query.defaultRoute
      | cons name filters => exact t.begins_query.findName hzero name
  | batch keys =>
      have hcounts : (r.look (.batch keys) t).2 = (r.batch keys t).2 := rfl
      rw [hcounts, resolved]
      rcases r.batch_ends keys t with
        ⟨hall, sorted, hbatch, -⟩ | ⟨before, key, after, failure, rfl, hbefore, hfails, hbatch⟩
      · rw [hbatch, batchResolved_of_found hall]
        exact classifies_afterAdding hzero keys t
      · -- the keys behind the one that goes nowhere are not looked up
        rw [hbatch, batchResolved_of_missing hbefore (addition_eq_error (hfails t)).1]
        exact classifies_afterAdding hzero (before ++ [key]) t

/-! ### Answers and counts -/

theorem fst_batchFrom (r : Router η) (place : Nat) (keys : List String) (groups : Groups)
    (t t' : Traffic) :
    (r.batchFrom place keys groups t).1 = (r.batchFrom place keys groups t').1 := by
  induction keys generalizing place groups t t' with
  | nil => rfl
  | cons key keys ih =>
      have hsame := r.fst_findKey key t'.addition t.addition
      cases hfound : (r.findKey key t.addition).1 with
      | error failure =>
          rw [batchFrom_cons_of_error hfound, batchFrom_cons_of_error (hsame.trans hfound)]
      | ok index =>
          rw [batchFrom_cons_of_ok hfound, batchFrom_cons_of_ok (hsame.trans hfound)]
          exact ih _ _ _ _

/-- **The answer to a call does not depend on what was counted before.** -/
theorem fst_look (r : Router η) (call : Lookup) (t t' : Traffic) :
    (r.look call t).1 = (r.look call t').1 := by
  cases call with
  | addition key =>
      have hsame : (r.addition key t).1 = (r.addition key t').1 := by
        rw [fst_addition, fst_addition, r.fst_findKey key t.addition t'.addition]
      exact congrArg (Except.map Found.shard) hsame
  | deletion key =>
      have hsame : (r.deletion key t).1 = (r.deletion key t').1 := by
        rw [fst_deletion, fst_deletion, fst_addition, fst_addition,
          r.fst_findKey key t.addition t'.addition]
      exact congrArg (Except.map Found.shards) hsame
  | query filters =>
      have hsame : (r.query filters t).1 = (r.query filters t').1 := by
        cases filters with
        | nil => rfl
        | cons name filters =>
            exact congrArg (Except.map fun index => [r.shard index])
              (r.fst_findName name t.query t'.query)
      exact congrArg (Except.map Found.shards) hsame
  | batch keys => exact congrArg (Except.map Found.groups) (r.fst_batchFrom 0 keys ∅ t t')

/-! ### Runs -/

/-- **A run of calls**: the answers, and the counts after it. -/
def ask (r : Router η) : List Lookup → Traffic → List (Except Failure (Found η)) × Traffic
  | [], t => ([], t)
  | call :: calls, t =>
      let (answer, t) := r.look call t
      let (answers, t) := r.ask calls t
      (answer :: answers, t)

theorem ask_cons (r : Router η) (call : Lookup) (calls : List Lookup) (t : Traffic) :
    r.ask (call :: calls) t =
      ((r.look call t).1 :: (r.ask calls (r.look call t).2).1,
        (r.ask calls (r.look call t).2).2) := rfl

/-- **The counts after a run tell where its lookups went.** -/
theorem classifies_ask (hzero : ∀ name, r.shardIndex? name ≠ some 0) (calls : List Lookup)
    (t : Traffic) : t.Classifies (r.ask calls t).2 (calls.flatMap r.resolved) := by
  induction calls generalizing t with
  | nil => exact .nil t
  | cons call calls ih =>
      rw [ask_cons, List.flatMap_cons]
      exact (classifies_look hzero call t).append (ih _)

/-- Every call is answered as if nothing had been asked before. -/
theorem fst_ask (r : Router η) (calls : List Lookup) (t : Traffic) :
    (r.ask calls t).1 = calls.map fun call => (r.look call .zero).1 := by
  induction calls generalizing t with
  | nil => rfl
  | cons call calls ih => rw [ask_cons, List.map_cons, ih, r.fst_look call t .zero]

/-- The misses of a run are the answers that name no shard. -/
theorem count_none_ask (r : Router η) (calls : List Lookup) (t : Traffic) :
    (calls.flatMap r.resolved).count none = (r.ask calls t).1.countP missed := by
  induction calls generalizing t with
  | nil => rfl
  | cons call calls ih =>
      rw [List.flatMap_cons, List.count_append, ask_cons, List.countP_cons, ← ih,
        r.count_none_resolved call t, Nat.add_comm]

/-- Lookups go to the default shard, to another one, or nowhere. -/
theorem length_eq_counts (found : List (Option Nat)) :
    found.length = found.count (some 0) + found.count none +
      found.countP fun number => number.any (1 ≤ ·) := by
  induction found with
  | nil => rfl
  | cons number found ih =>
      rw [List.length_cons, ih, List.count_cons, List.count_cons, List.countP_cons]
      rcases number with - | - | index
      · simp
        omega
      · simp
        omega
      · simp
        omega

/-- A batch that succeeds looks up all its keys. -/
theorem resolved_batch_of_ok {keys : List String} {found : Found η}
    (h : (r.look (.batch keys) t).1 = .ok found) :
    r.resolved (.batch keys) = keys.map r.keyIndex? := by
  rcases r.batch_ends keys t with ⟨hall, -⟩ | ⟨before, key, after, failure, -, -, -, hbatch⟩
  · exact batchResolved_of_found hall
  · rw [look, hbatch] at h
    cases h

/-- A batch that fails looks up the keys before the one that it fails at, and this one. -/
theorem resolved_batch_of_error {keys : List String} {failure : Failure}
    (h : (r.look (.batch keys) t).1 = .error failure) :
    ∃ before key after, keys = before ++ key :: after ∧
      (∀ k ∈ before, ∃ handle, (r.addition k t).1 = .ok handle) ∧
      (r.addition key t).1 = .error failure ∧
      r.resolved (.batch keys) = (before ++ [key]).map r.keyIndex? := by
  rcases r.batch_ends keys t with
    ⟨-, sorted, hbatch, -⟩ | ⟨before, key, after, failure, rfl, hbefore, hfails, hbatch⟩
  · rw [look, hbatch] at h
    cases h
  · rw [look, hbatch] at h
    cases h
    refine ⟨before, key, after, rfl, ?_, hfails t, ?_⟩
    · intro k hk
      exact (r.exists_addition_iff k t).2 (hbefore k hk)
    · exact batchResolved_of_missing hbefore (addition_eq_error (hfails t)).1 after

/-- The groups that a batch answers sort its keys by where they go. -/
theorem sorts_of_batch {keys : List String} {groups : Groups}
    (h : (r.batch keys t).1 = .ok groups) : r.Sorts keys groups := by
  rcases r.batch_ends keys t with
    ⟨-, sorted, hbatch, hsorts⟩ | ⟨before, key, after, failure, -, -, -, hbatch⟩
  · rw [hbatch] at h
    cases h
    exact hsorts
  · rw [hbatch] at h
    cases h

/-- **The counts classify the lookups.**  Of a router that was built over any shards, and has
counted nothing yet, any calls are asked.  Its lookups at the default shard are those that went
there, its misses are the answers that name no shard, and the rest of what was asked are the lookups
that went to another shard.  Where a lookup goes is what the answers tell: a key is stored in and
deleted from the shard with its number, a query runs against the shard with the number of its
filters, both name no shard if there is no number, and the groups of a batch sort its keys by their
numbers.  A batch makes one lookup for each key; if it fails, then for the keys before the one that
it fails at, and for this one.  What was asked before does not change an answer. -/
theorem traffic_classifies (h : r.Over shards options) (calls : List Lookup) :
    (r.ask calls .zero).2.defaultRoutes = (calls.flatMap r.resolved).count (some 0) ∧
      (r.ask calls .zero).2.misses = (r.ask calls .zero).1.countP missed ∧
      (r.ask calls .zero).2.additions + (r.ask calls .zero).2.deletions +
          (r.ask calls .zero).2.queries =
        (r.ask calls .zero).2.defaultRoutes + (r.ask calls .zero).2.misses +
          (calls.flatMap r.resolved).countP (fun number => number.any (1 ≤ ·)) ∧
      (∀ key, (∀ index, r.keyIndex? key = some index → r.Sends key index) ∧
        (r.keyIndex? key = none → ∃ name, r.Misses key name)) ∧
      (∀ filters,
        (∀ index, r.queryIndex? filters = some index →
          ∃ handle, r.shards[index]? = some handle ∧ ∀ t, (r.query filters t).1 = .ok [handle]) ∧
        (r.queryIndex? filters = none →
          ∃ name, ∀ t, (r.query filters t).1 = .error (.shardNotFound name))) ∧
      (∀ keys t groups, (r.batch keys t).1 = .ok groups → r.Sorts keys groups) ∧
      (∀ keys found, (r.look (.batch keys) .zero).1 = .ok found →
        r.resolved (.batch keys) = keys.map r.keyIndex?) ∧
      (∀ keys failure, (r.look (.batch keys) .zero).1 = .error failure →
        ∃ before key after, keys = before ++ key :: after ∧
          (∀ k ∈ before, ∃ handle, (r.addition k .zero).1 = .ok handle) ∧
          (r.addition key .zero).1 = .error failure ∧
          r.resolved (.batch keys) = (before ++ [key]).map r.keyIndex?) ∧
      (r.ask calls .zero).1 = calls.map (fun call => (r.look call .zero).1) ∧
      ∀ earlier call, (r.look call (r.ask earlier .zero).2).1 = (r.look call .zero).1 := by
  have hcounts := classifies_ask h.shardIndex?_ne_zero calls .zero
  have hdefault : (r.ask calls .zero).2.defaultRoutes =
      (calls.flatMap r.resolved).count (some 0) := by
    rw [hcounts.defaultRoutes]
    exact Nat.zero_add _
  have hmisses : (r.ask calls .zero).2.misses = (calls.flatMap r.resolved).count none := by
    rw [hcounts.misses]
    exact Nat.zero_add _
  have hasked : (r.ask calls .zero).2.asked = (calls.flatMap r.resolved).length := by
    rw [hcounts.asked]
    exact Nat.zero_add _
  refine ⟨hdefault, ?_, ?_, fun key => ⟨fun index => sends_of_keyIndex?, exists_misses⟩,
    fun filters => ⟨fun index => query_of_queryIndex?, exists_query_misses⟩,
    fun keys t groups => sorts_of_batch, fun keys found => resolved_batch_of_ok,
    fun keys failure => resolved_batch_of_error, r.fst_ask calls .zero, ?_⟩
  · rw [hmisses, r.count_none_ask calls .zero]
  · rw [hdefault, hmisses, ← length_eq_counts, ← hasked]
    rfl
  · intro earlier call
    exact r.fst_look call _ .zero

/-- All sorts of calls: without a name, with one that a shard has, and with one that none has. -/
def mixedCalls : List Lookup :=
  [.addition "x", .addition "x!!b", .deletion "y!!none", .query [], .query ["b", "none"],
    .query ["none", "b"], .batch ["x", "y!!b", "z!!none", "z"], .batch []]

theorem traffic_classifies_mixedCalls :
    (nestedRouter.ask mixedCalls .zero).2.defaultRoutes = 3 ∧
      (nestedRouter.ask mixedCalls .zero).2.misses = 3 ∧
      (nestedRouter.ask mixedCalls .zero).2.additions +
          (nestedRouter.ask mixedCalls .zero).2.deletions +
          (nestedRouter.ask mixedCalls .zero).2.queries = 3 + 3 + 3 ∧
      nestedRouter.Sends "x!!b" 2 ∧ (∃ name, nestedRouter.Misses "y!!none" name) ∧
      ∃ handle, nestedRouter.shards[2]? = some handle ∧
        ∀ t, (nestedRouter.query ["b", "none"] t).1 = .ok [handle] := by
  obtain ⟨hdefault, hmisses, hasked, hkeys, hfilters, -⟩ :=
    traffic_classifies over_nestedRouter mixedCalls
  have hresolved : mixedCalls.flatMap nestedRouter.resolved =
      [some 0, some 2, none, some 0, some 2, none, some 0, some 2, none] := by
    decide +kernel
  have hanswers : (nestedRouter.ask mixedCalls .zero).1.countP missed = 3 := by decide +kernel
  rw [hresolved] at hdefault hasked
  rw [hanswers] at hmisses
  rw [hasked, hdefault, hmisses]
  exact ⟨rfl, rfl, rfl, (hkeys "x!!b").1 2 (by decide +kernel),
    (hkeys "y!!none").2 (by decide +kernel), (hfilters ["b", "none"]).1 2 (by decide +kernel)⟩

end Router

end Tenancy.Routing
