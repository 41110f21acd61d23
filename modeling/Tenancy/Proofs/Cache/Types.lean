/-
**The types of a cache, resolved.**

The types of a kind are resolved one after the other in the order of their names, which is that of
the octets of the names, and the first one that nobody knows ends it.  So either all are known, and
the handles are those of the names in ascending order; or the failure names the least that is not.
The registry of a table knows just the types that the table names, however many kinds name them,
each under its own name.

Main definitions:

* `Tenancy.Cache.NamesOf`, `Tenancy.Cache.HandlesOf` — the names of a set of types in the order of
  their octets, and **the handles in this order**;
* `Tenancy.Cache.LeastUnknown` — the least type that nobody knows;
* `Tenancy.Cache.DecidedByTypes` — an answer that depends on whether the types are known.

Main results:

* `Tenancy.Cache.resolveTypes_eq_ok_iff`, `Tenancy.Cache.resolveTypes_eq_error_iff` — **what
  resolving a list of names gives**;
* `Tenancy.Cache.decidedByTypes_describe` — with a mux id the types decide on a description;
* `Tenancy.Cache.Registry.resolve?_ofTable` — **the registry of a table knows its types**.
-/

import Tenancy.Cache.Description
import Tenancy.Proofs.Octets.Order

set_option relaxedAutoImplicit false
set_option autoImplicit false

namespace Tenancy.Cache

variable {source : TypeSource}

/-! ### Lists of names -/

/-- **All names are known, and these are their handles.** -/
theorem resolveTypes_eq_ok_iff {names : List String} {handles : List TypeHandle} :
    resolveTypes source names = .ok handles ↔ names.map source = handles.map some := by
  induction names generalizing handles with
  | nil =>
      rw [resolveTypes_nil, Except.ok.injEq, List.map_nil, eq_comm, eq_comm (a := [])]
      exact List.map_eq_nil_iff.symm
  | cons name names ih =>
      rw [resolveTypes_cons, List.map_cons]
      cases hname : source name with
      | none =>
          refine iff_of_false nofun fun h => ?_
          cases handles <;> cases h
      | some handle =>
          dsimp only
          constructor
          · intro h
            cases hrest : resolveTypes source names with
            | error failure =>
                rw [hrest] at h
                cases h
            | ok others =>
                rw [hrest] at h
                cases h
                rw [List.map_cons, ih.1 hrest]
          · intro h
            cases handles with
            | nil => cases h
            | cons first others =>
                rw [List.map_cons, List.cons.injEq, Option.some.injEq] at h
                obtain ⟨rfl, hothers⟩ := h
                rw [ih.2 hothers]
                rfl

/-- **The least name that nobody knows is the failure**, if the names ascend. -/
theorem resolveTypes_eq_error_iff {names : List String} (hnames : names.Pairwise (· < ·))
    {failure : Failure} :
    resolveTypes source names = .error failure ↔
      ∃ name ∈ names, source name = none ∧ failure = .unknownType name ∧
        ∀ other ∈ names, source other = none → name ≤ other := by
  induction names with
  | nil =>
      refine iff_of_false nofun ?_
      rintro ⟨name, hname, -⟩
      exact List.not_mem_nil hname
  | cons name names ih =>
      obtain ⟨hleast, hrest⟩ := List.pairwise_cons.1 hnames
      rw [resolveTypes_cons]
      cases hname : source name with
      | none =>
          -- the first name is unknown, and it is the least of all
          have hfirst : ∀ other ∈ name :: names, name ≤ other := by
            intro other ho
            rcases List.mem_cons.1 ho with rfl | ho
            · exact le_refl _
            · exact le_of_lt (hleast other ho)
          constructor
          · intro h
            cases h
            exact ⟨name, List.mem_cons_self, hname, rfl, fun other ho _ => hfirst other ho⟩
          · rintro ⟨found, hmem, -, rfl, hlow⟩
            rw [le_antisymm (hlow name List.mem_cons_self hname) (hfirst found hmem)]
      | some handle =>
          have htail : (resolveTypes source names).map (handle :: ·) = .error failure ↔
              resolveTypes source names = .error failure := by
            cases resolveTypes source names with
            | error other => exact Iff.rfl
            | ok handles => exact iff_of_false nofun nofun
          have hknown : ∀ other ∈ name :: names, source other = none → other ∈ names := by
            intro other ho hnone
            rcases List.mem_cons.1 ho with rfl | ho
            · rw [hname] at hnone
              cases hnone
            · exact ho
          dsimp only
          rw [htail, ih hrest]
          constructor
          · rintro ⟨found, hmem, hnone, hfailure, hlow⟩
            exact ⟨found, List.mem_cons_of_mem name hmem, hnone, hfailure, fun other ho hother =>
              hlow other (hknown other ho hother) hother⟩
          · rintro ⟨found, hmem, hnone, hfailure, hlow⟩
            exact ⟨found, hknown found hmem hnone, hnone, hfailure, fun other ho hother =>
              hlow other (List.mem_cons_of_mem name ho) hother⟩

/-! ### Sets of types -/

/-- The names in a set, in strictly ascending order of their octets. -/
structure NamesOf (types : Std.ExtTreeSet String) (names : List String) : Prop where
  mem_iff : ∀ name, name ∈ names ↔ name ∈ types
  ascending : (names.map fun name => name.toUTF8.data.toList).Pairwise (· < ·)

/-- **The handles of a set of types**: those of its names, in strictly ascending order of the names'
octets. -/
def HandlesOf (source : TypeSource) (types : Std.ExtTreeSet String) (handles : List TypeHandle) :
    Prop :=
  ∃ names, NamesOf types names ∧ names.map source = handles.map some

/-- **The type with the least octets that nobody knows.** -/
structure LeastUnknown (source : TypeSource) (types : Std.ExtTreeSet String) (name : String) :
    Prop where
  mem : name ∈ types
  unknown : source name = none
  le : ∀ other ∈ types, source other = none → name.toUTF8.data.toList ≤ other.toUTF8.data.toList

/-- **An answer that depends on whether the types are known**: a description with their handles if
all are, and otherwise the failure that names the least that is not. -/
structure DecidedByTypes (source : TypeSource) (types : Std.ExtTreeSet String)
    (answer : Except Failure Description) : Prop where
  ok_iff : (∃ description, answer = .ok description) ↔
    ∀ name ∈ types, ∃ handle, source name = some handle
  handles : ∀ description, answer = .ok description → HandlesOf source types description.types
  unknown : ∀ failure, answer = .error failure →
    ∃ name, LeastUnknown source types name ∧ failure = .unknownType name

section Sets

variable {types : Std.ExtTreeSet String}

theorem pairwise_types (types : Std.ExtTreeSet String) : types.toList.Pairwise (· < ·) :=
  Std.ExtTreeSet.ordered_toList.imp fun hlt => compare_lt_iff_lt.1 hlt

theorem namesOf_toList (types : Std.ExtTreeSet String) : NamesOf types types.toList where
  mem_iff name := Std.ExtTreeSet.mem_toList
  ascending := by
    simp only [List.pairwise_map, Utf8.toUTF8_eq_encode, Utf8.encode_lt_iff]
    exact pairwise_types types

theorem handlesOf_of_resolveTypes {handles : List TypeHandle}
    (h : resolveTypes source types.toList = .ok handles) : HandlesOf source types handles :=
  ⟨types.toList, namesOf_toList types, resolveTypes_eq_ok_iff.1 h⟩

theorem leastUnknown_of_resolveTypes {failure : Failure}
    (h : resolveTypes source types.toList = .error failure) :
    ∃ name, LeastUnknown source types name ∧ failure = .unknownType name := by
  obtain ⟨name, hmem, hnone, rfl, hlow⟩ := (resolveTypes_eq_error_iff (pairwise_types types)).1 h
  refine ⟨name, ⟨Std.ExtTreeSet.mem_toList.1 hmem, hnone, ?_⟩, rfl⟩
  intro other ho hother
  rw [Utf8.toUTF8_eq_encode, Utf8.toUTF8_eq_encode, Utf8.encode_le_iff]
  exact hlow other (Std.ExtTreeSet.mem_toList.2 ho) hother

/-- With handles for them all types are known. -/
theorem HandlesOf.known {handles : List TypeHandle} (h : HandlesOf source types handles) :
    ∀ name ∈ types, ∃ handle, source name = some handle := by
  obtain ⟨names, hnames, hhandles⟩ := h
  intro name hname
  have hsome : source name ∈ handles.map some := by
    rw [← hhandles]
    exact List.mem_map_of_mem ((hnames.mem_iff name).2 hname)
  obtain ⟨handle, -, heq⟩ := List.mem_map.1 hsome
  exact ⟨handle, heq.symm⟩

end Sets

/-! ### Descriptions -/

section Describe

variable {table : Table} {count : UInt16} {tenant : String} {kind : Kind} {slot : Slot}

/-- **With a mux id the types decide on a description.** -/
theorem decidedByTypes_describe {id : Int16} (hid : table.muxId kind slot count = .ok id) :
    DecidedByTypes source (table.spec kind).types
      (describe table source count tenant kind slot) := by
  cases htypes : resolveTypes source (table.spec kind).types.toList with
  | ok handles =>
      have hdescribe : describe table source count tenant kind slot =
          .ok ⟨tenant, kind, cacheName tenant kind, slot, id, handles⟩ := by
        simp only [describe, hid, htypes]
        rfl
      have hhandles := handlesOf_of_resolveTypes htypes
      rw [hdescribe]
      refine ⟨iff_of_true ⟨_, rfl⟩ hhandles.known, ?_, nofun⟩
      intro description h
      cases h
      exact hhandles
  | error failure =>
      have hdescribe : describe table source count tenant kind slot = .error failure := by
        simp only [describe, hid, htypes]
        rfl
      have hleast := leastUnknown_of_resolveTypes htypes
      rw [hdescribe]
      refine ⟨iff_of_false nofun fun hknown => ?_, nofun, ?_⟩
      · obtain ⟨name, hname, -⟩ := hleast
        obtain ⟨handle, hsome⟩ := hknown name hname.mem
        rw [hname.unknown] at hsome
        cases hsome
      · intro other h
        cases h
        exact hleast

/-- Without a mux id the types do not matter. -/
theorem describe_of_muxId_eq_error {failure : Failure}
    (hid : table.muxId kind slot count = .error failure) :
    describe table source count tenant kind slot = .error failure := by
  simp only [describe, hid]
  rfl

end Describe

/-! ### The registry of a table -/

namespace Registry

/-- Names registered under themselves are found so, next to what was registered before. -/
theorem resolve?_foldl_withType (r : Registry) (names : List String) (name : String) :
    ((names.map fun name => (name, name)).foldl
      (fun r (name, indexName) => r.withType name indexName) r).resolve? name =
      if name ∈ names then some ⟨name, name⟩ else r.resolve? name := by
  induction names generalizing r with
  | nil => rfl
  | cons first names ih =>
      rw [List.map_cons, List.foldl_cons, ih, resolve?_withType]
      by_cases hmem : name ∈ names
      · rw [if_pos hmem, if_pos (List.mem_cons_of_mem first hmem)]
      · rw [if_neg hmem]
        by_cases hfirst : first = name
        · subst hfirst
          rw [if_pos rfl, if_pos List.mem_cons_self]
        · have hnone : name ∉ first :: names := fun h =>
            (List.mem_cons.1 h).elim (fun heq => hfirst heq.symm) hmem
          rw [if_neg hfirst, if_neg hnone]

/-- **The registry of a table knows the types that some kind names**, each under its own name. -/
theorem resolve?_ofTable {t : Table} {name : String} {handle : TypeHandle} :
    (ofTable t).resolve? name = some handle ↔
      (∃ kind, name ∈ (t.spec kind).types) ∧ handle = ⟨name, name⟩ := by
  have hmem : name ∈ (Kind.all.flatMap fun kind => (t.spec kind).types.toList) ↔
      ∃ kind, name ∈ (t.spec kind).types := by
    rw [List.mem_flatMap]
    simp only [Kind.mem_all, true_and, Std.ExtTreeSet.mem_toList]
  rw [ofTable, ofList, resolve?_foldl_withType, resolve?_empty]
  by_cases hname : name ∈ (Kind.all.flatMap fun kind => (t.spec kind).types.toList)
  · rw [if_pos hname, Option.some.injEq, ← hmem]
    exact ⟨fun h => ⟨hname, h.symm⟩, fun h => h.2.symm⟩
  · rw [if_neg hname, ← hmem]
    exact iff_of_false nofun fun h => hname h.1

/-- So it knows those of each kind. -/
theorem resolve?_ofTable_of_mem {t : Table} {kind : Kind} {name : String}
    (h : name ∈ (t.spec kind).types) : (ofTable t).resolve? name = some ⟨name, name⟩ :=
  resolve?_ofTable.2 ⟨⟨kind, h⟩, rfl⟩

/-- **With the registry of a table the handles are the names themselves.** -/
theorem exists_names_of_handlesOf {t : Table} {kind : Kind} {handles : List TypeHandle}
    (h : HandlesOf (ofTable t).resolve? (t.spec kind).types handles) :
    ∃ names, NamesOf (t.spec kind).types names ∧
      handles = names.map fun name => ⟨name, name⟩ := by
  obtain ⟨names, hnames, hhandles⟩ := h
  refine ⟨names, hnames, ?_⟩
  have hsome : handles.map some = (names.map fun name => ⟨name, name⟩).map some := by
    rw [← hhandles, List.map_map]
    refine List.map_congr_left fun name hname => ?_
    exact resolve?_ofTable_of_mem ((hnames.mem_iff name).1 hname)
  exact (List.map_inj_right fun _ _ => Option.some.inj).1 hsome

end Registry

end Tenancy.Cache
