/-
**What properties name.**

A list of properties is read from its beginning, and each property that names a shard takes the
place of what named that shard before.  So for each shard the last property that names it counts.
Which properties do so is told here by their text: the digits behind the marker may begin with
zeros, and a property without a name neither names a shard nor takes a name away.

Main definitions:

* `Tenancy.Routing.decimal` — the number that decimal digits stand for;
* `Tenancy.Routing.NamesShard` — **a property that names a shard**;
* `Tenancy.Routing.LastNames` — the last property of a list that names a shard;
* `Tenancy.Routing.Names.indices` — the shards that have a name, as a finite set.

Main results:

* `Tenancy.Routing.shardIndex?_eq_some_iff` — the shard that a key is about;
* `Tenancy.Routing.Names.name?_addPair` — what one more property does;
* `Tenancy.Routing.Names.name?_ofPairs_iff` — what all of them do;
* `Tenancy.Routing.Names.last_property_counts` — **the last property counts**, and the names are
  listed in the order of their shards.
-/

import Mathlib.Data.Nat.Digits.Defs
import Mathlib.Data.Set.Card
import Tenancy.Proofs.Text.Trim
import Tenancy.Routing.Names

set_option relaxedAutoImplicit false
set_option autoImplicit false

namespace Tenancy.Routing

open Text

/-! ### Names as a map -/

namespace Names

variable {n : Names} {index : Nat} {name : String}

/-- Names that agree on every shard are the same. -/
theorem ext_name? {n n' : Names} (h : ∀ index, n.name? index = n'.name? index) : n = n' := by
  obtain ⟨byIndex⟩ := n
  obtain ⟨byIndex'⟩ := n'
  have hmaps : byIndex = byIndex' := Std.ExtTreeMap.ext_getElem? fun index => h index
  rw [hmaps]

theorem mem_toList_iff : (index, name) ∈ n.toList ↔ n.name? index = some name :=
  Std.ExtTreeMap.mem_toList_iff_getElem?_eq_some

/-- The names are listed in the order of their shards. -/
theorem ascending_toList (n : Names) : n.toList.Pairwise fun entry later => entry.1 < later.1 := by
  refine n.byIndex.ordered_keys_toList.imp ?_
  intro entry later h
  exact Nat.compare_eq_lt.1 h

/-- No shard is listed twice. -/
theorem nodup_map_fst_toList (n : Names) : (n.toList.map Prod.fst).Nodup := by
  rw [List.Nodup, List.pairwise_map]
  exact n.ascending_toList.imp fun h => Nat.ne_of_lt h

/-- **The shards that have a name.** -/
def indices (n : Names) : Finset Nat := (n.toList.map Prod.fst).toFinset

theorem mem_indices : index ∈ n.indices ↔ ∃ name, n.name? index = some name := by
  simp only [indices, List.mem_toFinset, List.mem_map, Prod.exists, mem_toList_iff]
  constructor
  · rintro ⟨_, name, hname, rfl⟩
    exact ⟨name, hname⟩
  · rintro ⟨name, hname⟩
    exact ⟨index, name, hname, rfl⟩

theorem card_indices (n : Names) : n.indices.card = n.size := by
  rw [indices, List.toFinset_card_of_nodup n.nodup_map_fst_toList, List.length_map]
  exact Std.ExtTreeMap.length_toList

/-- The size is the number of shards that have a name. -/
theorem encard_named (n : Names) : {index | ∃ name, n.name? index = some name}.encard = n.size := by
  have hset : {index | ∃ name, n.name? index = some name} = (n.indices : Set Nat) := by
    ext index
    exact mem_indices.symm
  rw [hset, Set.encard_coe_eq_coe_finsetCard, card_indices]

end Names

/-! ### Numbers in decimal -/

/-- The number that one digit stands for. -/
def digitValue (c : Char) : Nat := c.toNat - '0'.toNat

/-- **The number that decimal digits stand for**: the last digit counts ones, the one before it
tens, and so on. -/
def decimal (digits : List Char) : Nat := Nat.ofDigits 10 (digits.reverse.map digitValue)

theorem decimal_cons (c : Char) (digits : List Char) :
    decimal (c :: digits) = decimal digits + 10 ^ digits.length * digitValue c := by
  rw [decimal, List.reverse_cons, List.map_append, Nat.ofDigits_append, List.length_map,
    List.length_reverse, List.map_singleton, Nat.ofDigits_singleton]
  rfl

/-- Reading digits from the first on gives this number. -/
theorem ofDigitChars_eq_decimal (digits : List Char) :
    Nat.ofDigitChars 10 digits 0 = decimal digits := by
  induction digits with
  | nil => rfl
  | cons c digits ih =>
      rw [Nat.ofDigitChars_cons, Nat.ofDigitChars_eq_ofDigitChars_zero, ih, decimal_cons,
        Nat.mul_zero, Nat.zero_add, Nat.add_comm]
      rfl

theorem isDigit_iff {c : Char} : isDigit c = true ↔ '0' ≤ c ∧ c ≤ '9' := by
  simp [isDigit]

/-- The digits of a number that a shard can have. -/
theorem readIndex?_eq_some_iff {digits : List Char} {index : Nat} :
    readIndex? digits = some index ↔
      digits ≠ [] ∧ (∀ c ∈ digits, '0' ≤ c ∧ c ≤ '9') ∧ decimal digits = index ∧
        index < 2 ^ 64 := by
  have hbound : decimal digits ≤ maxIndex ↔ decimal digits < 2 ^ 64 := by
    rw [maxIndex]
    omega
  simp only [readIndex?, List.all_eq_true, isDigit_iff, ofDigitChars_eq_decimal, hbound]
  constructor
  · intro h
    split at h
    · rename_i hdigits
      split at h
      · rename_i hlt
        cases h
        exact ⟨hdigits.1, hdigits.2, rfl, hlt⟩
      · cases h
    · cases h
  · rintro ⟨hne, hall, rfl, hlt⟩
    rw [if_pos ⟨hne, hall⟩, if_pos hlt]

/-- **The shard that a key is about.** -/
theorem shardIndex?_eq_some_iff {marker key : List Char} {index : Nat} :
    shardIndex? marker key = some index ↔
      ∃ digits, key = marker ++ digits ∧ digits ≠ [] ∧ (∀ c ∈ digits, '0' ≤ c ∧ c ≤ '9') ∧
        decimal digits = index ∧ index < 2 ^ 64 := by
  rw [shardIndex?]
  constructor
  · intro h
    split at h
    · rename_i hbegins
      obtain ⟨digits, rfl⟩ := List.isPrefixOf_iff_prefix.1 hbegins
      rw [List.drop_left, readIndex?_eq_some_iff] at h
      exact ⟨digits, rfl, h⟩
    · cases h
  · rintro ⟨digits, rfl, h⟩
    rw [if_pos (List.isPrefixOf_iff_prefix.2 ⟨digits, rfl⟩), List.drop_left]
    exact readIndex?_eq_some_iff.2 h

/-! ### Properties that name a shard -/

/-- **A property names a shard**: its key without blanks around it is the marker, followed by the
digits of the shard's number, and its value without blanks around it is the name. -/
structure NamesShard (marker : String) (pair : String × String) (index : Nat) (name : String) :
    Prop where
  key : ∃ digits, Trimmed pair.1.toList (marker.toList ++ digits) ∧ digits ≠ [] ∧
    (∀ c ∈ digits, '0' ≤ c ∧ c ≤ '9') ∧ decimal digits = index
  /-- It is a number that a shard can have. -/
  lt : index < 2 ^ 64
  value : Trimmed pair.2.toList name.toList
  nonempty : name ≠ ""

variable {marker : String} {pair : String × String} {index : Nat} {name : String}

/-- A property names a shard if it reads so. -/
theorem namesShard_iff :
    NamesShard marker pair index name ↔
      shardIndex? marker.toList (trim pair.1.toList) = some index ∧
        trim pair.2.toList = name.toList ∧ name ≠ "" := by
  rw [shardIndex?_eq_some_iff, trim_eq_iff]
  constructor
  · rintro ⟨⟨digits, hkey, hne, hdigits, hvalue⟩, hlt, hname, hnonempty⟩
    exact ⟨⟨digits, hkey.trim_eq, hne, hdigits, hvalue, hlt⟩, hname, hnonempty⟩
  · rintro ⟨⟨digits, hkey, hne, hdigits, hvalue, hlt⟩, hname, hnonempty⟩
    exact ⟨⟨digits, trim_eq_iff.1 hkey, hne, hdigits, hvalue⟩, hlt, hname, hnonempty⟩

/-- A property gives one name to one shard. -/
theorem NamesShard.unique {other : Nat} {name' : String} (h : NamesShard marker pair index name)
    (h' : NamesShard marker pair other name') : index = other ∧ name = name' := by
  obtain ⟨hindex, hname, -⟩ := namesShard_iff.1 h
  obtain ⟨hindex', hname', -⟩ := namesShard_iff.1 h'
  exact ⟨Option.some.inj (hindex.symm.trans hindex'),
    String.toList_inj.1 (hname.symm.trans hname')⟩

namespace Names

/-- **What a property does**: it names its shard, or it does nothing. -/
theorem addPair_cases (marker : String) (pair : String × String) :
    (∃ index name, NamesShard marker pair index name ∧
      ∀ n : Names, addPair marker n pair = n.withName index name) ∨
    (∀ index name, ¬ NamesShard marker pair index name) ∧
      ∀ n : Names, addPair marker n pair = n := by
  cases hindex : shardIndex? marker.toList (trim pair.1.toList) with
  | none =>
      refine .inr ⟨?_, fun n => by simp only [addPair, hindex]⟩
      intro index name h
      rw [namesShard_iff, hindex] at h
      cases h.1
  | some index =>
      cases hvalue : trim pair.2.toList with
      | nil =>
          refine .inr ⟨?_, fun n => by simp only [addPair, hindex, hvalue]⟩
          intro other name h
          obtain ⟨-, hname, hnonempty⟩ := namesShard_iff.1 h
          rw [hvalue] at hname
          exact hnonempty (String.toList_eq_nil_iff.1 hname.symm)
      | cons c cs =>
          refine .inl ⟨index, String.ofList (c :: cs), ?_,
            fun n => by simp only [addPair, hindex, hvalue]⟩
          refine namesShard_iff.2 ⟨hindex, by rw [hvalue, String.toList_ofList], ?_⟩
          intro hempty
          have hchars := congrArg String.toList hempty
          rw [String.toList_ofList] at hchars
          cases hchars

/-- The names after one more property. -/
theorem name?_addPair (n : Names) :
    (addPair marker n pair).name? index = some name ↔
      NamesShard marker pair index name ∨
        (∀ other, ¬ NamesShard marker pair index other) ∧ n.name? index = some name := by
  rcases addPair_cases marker pair with ⟨index', name', hnames, hadd⟩ | ⟨hnone, hadd⟩
  · rw [hadd, name?_withName]
    by_cases hindex : index' = index
    · subst hindex
      rw [if_pos rfl]
      constructor
      · intro h
        cases h
        exact .inl hnames
      · rintro (h | ⟨hnot, -⟩)
        · rw [(hnames.unique h).2]
        · exact absurd hnames (hnot name')
    · rw [if_neg hindex]
      have hnot : ∀ other, ¬ NamesShard marker pair index other :=
        fun other h => hindex (hnames.unique h).1
      exact ⟨fun h => .inr ⟨hnot, h⟩, fun h => (h.resolve_left (hnot name)).2⟩
  · rw [hadd]
    exact ⟨fun h => .inr ⟨hnone index, h⟩, fun h => (h.resolve_left (hnone index name)).2⟩

end Names

/-! ### The last property that names a shard -/

/-- **The last property that names a shard**: no later one names it. -/
def LastNames (marker : String) (pairs : List (String × String)) (index : Nat) (name : String) :
    Prop :=
  ∃ before pair after, pairs = before ++ pair :: after ∧ NamesShard marker pair index name ∧
    ∀ later ∈ after, ∀ other, ¬ NamesShard marker later index other

/-- One more property is the last that names the shard, or it does not name it. -/
theorem lastNames_concat {pairs : List (String × String)} :
    LastNames marker (pairs ++ [pair]) index name ↔
      NamesShard marker pair index name ∨
        (∀ other, ¬ NamesShard marker pair index other) ∧ LastNames marker pairs index name := by
  constructor
  · rintro ⟨before, chosen, after, hsplit, hnames, hlast⟩
    rcases List.eq_nil_or_concat' after with rfl | ⟨rest, last, rfl⟩
    · obtain ⟨-, hsame⟩ := List.append_inj' hsplit rfl
      cases hsame
      exact .inl hnames
    · rw [← List.cons_append, ← List.append_assoc] at hsplit
      obtain ⟨hpairs, hsame⟩ := List.append_inj' hsplit rfl
      cases hsame
      refine .inr ⟨hlast pair (by simp), before, chosen, rest, hpairs, hnames, ?_⟩
      intro later hlater
      exact hlast later (List.mem_append_left _ hlater)
  · rintro (hnames | ⟨hnot, before, chosen, after, rfl, hnames, hlast⟩)
    · exact ⟨pairs, pair, [], rfl, hnames, fun later hlater => (List.not_mem_nil hlater).elim⟩
    · refine ⟨before, chosen, after ++ [pair], by simp, hnames, ?_⟩
      intro later hlater
      rcases List.mem_append.1 hlater with hlater | hlater
      · exact hlast later hlater
      · rw [List.mem_singleton.1 hlater]
        exact hnot

namespace Names

/-- **A shard has the name that the last property naming it gives.** -/
theorem name?_ofPairs_iff (marker : String) (pairs : List (String × String)) (index : Nat)
    (name : String) :
    (ofPairs marker pairs).name? index = some name ↔ LastNames marker pairs index name := by
  -- the names are read from the first property on, so the induction is on the end of the list
  induction pairs using List.reverseRecOn with
  | nil =>
      rw [ofPairs, List.foldl_nil, name?_empty]
      constructor
      · intro h
        cases h
      · rintro ⟨before, pair, after, hsplit, -⟩
        exact absurd hsplit (by simp)
  | append_singleton pairs pair ih =>
      rw [ofPairs_append, List.foldl_cons, List.foldl_nil, name?_addPair, ih, lastNames_concat]

/-- **The last property counts.**  A shard has a name exactly if some property names it, and then
the name that the last of these gives.  The names are listed in the order of their shards, each
once, and the size is the number of shards that have one. -/
theorem last_property_counts (marker : String) (pairs : List (String × String)) :
    (∀ index name, (ofPairs marker pairs).name? index = some name ↔
      ∃ before pair after, pairs = before ++ pair :: after ∧ NamesShard marker pair index name ∧
        ∀ later ∈ after, ∀ other, ¬ NamesShard marker later index other) ∧
    (ofPairs marker pairs).toList.Pairwise (fun entry later => entry.1 < later.1) ∧
    (∀ index name, (index, name) ∈ (ofPairs marker pairs).toList ↔
      (ofPairs marker pairs).name? index = some name) ∧
    {index | ∃ name, (ofPairs marker pairs).name? index = some name}.encard =
      (ofPairs marker pairs).size := by
  refine ⟨name?_ofPairs_iff marker pairs, ascending_toList _, ?_, encard_named _⟩
  intro index name
  exact mem_toList_iff

/-- Leading zeros, blanks and a later property without a name. -/
example : (ofPairs "p." [("p.1", "a"), (" p.01 ", "b "), ("p.1", " "), ("p.+1", "c")]).name? 1 =
    some "b" := by
  decide +kernel

end Names

end Tenancy.Routing
