/-
**What a verified table guarantees.**

A table that passes its check over a range of slots gives the six kinds six different mux ids at
every slot of the range, so that nothing is left that could go wrong when a cache is described but a
type that nobody knows.

Main definitions:

* `Tenancy.Cache.Table.Separates` — the six mux ids at a slot exist and differ;
* `Tenancy.Cache.Table.checkKind` — the check of one kind at a slot, without remembered ids.

Main results:

* `Tenancy.Cache.forM_eq_ok_iff`, `Tenancy.Cache.forM_eq_error_iff` — a list of checks passes as all
  its checks do, and fails as the first failing one;
* `Tenancy.Cache.Table.checkKinds_eq_forM` — **the remembered ids tell the same as a look back at
  all kinds before**;
* `Tenancy.Cache.Table.verify_eq_ok_iff` — **the check passes exactly when all signs are right and
  the kinds are separated at every slot of the range**;
* `Tenancy.Settings.validate_eq_ok_iff`, `Tenancy.Resolver.new_eq_ok` — what it takes to get a
  resolver;
* `Tenancy.Cache.describe_eq_error` — with a mux id only types can be missing.
-/

import Mathlib.Data.List.Pairwise
import Mathlib.Data.List.Nodup
import Tenancy.Node.Basic
import Tenancy.Proofs.Cache.Types

set_option relaxedAutoImplicit false
set_option autoImplicit false

namespace Tenancy

namespace Cache

/-- Every member of a list passes a check exactly when the check of the list passes. -/
theorem forM_eq_ok_iff {α : Type} {check : α → Except Failure Unit} {items : List α} :
    items.forM check = .ok () ↔ ∀ item ∈ items, check item = .ok () := by
  induction items with
  | nil => exact iff_of_true rfl fun item hi => (List.not_mem_nil hi).elim
  | cons item items ih =>
      show (check item >>= fun _ => items.forM check) = .ok () ↔ _
      rw [List.forall_mem_cons, ← ih]
      cases check item with
      | error failure => exact iff_of_false nofun fun h => by cases h.1
      | ok done => exact (and_iff_right rfl).symm

/-- A list of checks fails as its first failing check does; `key` ascends along the list. -/
theorem forM_eq_error_iff {α : Type} {check : α → Except Failure Unit} {items : List α}
    {key : α → Nat} (hitems : items.Pairwise fun a b => key a < key b) {failure : Failure} :
    items.forM check = .error failure ↔
      ∃ item ∈ items, check item = .error failure ∧
        ∀ other ∈ items, key other < key item → check other = .ok () := by
  induction items with
  | nil =>
      constructor
      · intro h
        cases h
      · rintro ⟨item, hitem, -⟩
        exact (List.not_mem_nil hitem).elim
  | cons item items ih =>
      obtain ⟨hhead, htail⟩ := List.pairwise_cons.1 hitems
      show (check item >>= fun _ => items.forM check) = .error failure ↔ _
      cases hcheck : check item with
      | error found =>
          constructor
          · intro h
            cases h
            refine ⟨item, List.mem_cons_self, hcheck, ?_⟩
            intro other hother hlt
            rcases List.mem_cons.1 hother with rfl | hother
            · exact absurd hlt (Nat.lt_irrefl _)
            · exact absurd hlt (Nat.lt_asymm (hhead other hother))
          · rintro ⟨other, hother, hfails, hbefore⟩
            rcases List.mem_cons.1 hother with rfl | hother
            · rw [hcheck] at hfails
              cases hfails
              rfl
            · have hpasses := hbefore item List.mem_cons_self (hhead other hother)
              rw [hcheck] at hpasses
              cases hpasses
      | ok done =>
          show items.forM check = .error failure ↔ _
          rw [ih htail]
          constructor
          · rintro ⟨other, hother, hfails, hbefore⟩
            refine ⟨other, List.mem_cons_of_mem item hother, hfails, ?_⟩
            intro earlier hearlier hlt
            rcases List.mem_cons.1 hearlier with rfl | hearlier
            · exact hcheck
            · exact hbefore earlier hearlier hlt
          · rintro ⟨other, hother, hfails, hbefore⟩
            rcases List.mem_cons.1 hother with rfl | hother
            · rw [hcheck] at hfails
              cases hfails
            · refine ⟨other, hother, hfails, ?_⟩
              intro earlier hearlier hlt
              exact hbefore earlier (List.mem_cons_of_mem item hearlier) hlt

/-- The slots of a range ascend. -/
theorem pairwise_slotsBetween (first last : Slot) :
    (slotsBetween first last).Pairwise fun a b => a.toNat < b.toNat := by
  have hlast := last.toNat_lt
  rw [slotsBetween, List.pairwise_map]
  refine List.Pairwise.imp_of_mem ?_ List.pairwise_lt_range'
  intro a b ha hb hlt
  rw [List.mem_range'_1] at ha hb
  rw [UInt16.toNat_ofNat_of_lt' (by simp [UInt16.size]; omega),
    UInt16.toNat_ofNat_of_lt' (by simp [UInt16.size]; omega)]
  exact hlt

namespace Table

variable {t : Table} {count : UInt16} {slot first last : Slot}

/-! ### One slot -/

/-- **The six mux ids at a slot exist and differ.** -/
def Separates (t : Table) (count : UInt16) (slot : Slot) : Prop :=
  ∃ ids : Kind → Int16, Function.Injective ids ∧ ∀ kind, t.muxId kind slot count = .ok (ids kind)

/-- A kind has a mux id at a slot. -/
def HasId (t : Table) (count : UInt16) (slot : Slot) (id : Int16) (kind : Kind) : Prop :=
  t.muxId kind slot count = .ok id

instance (t : Table) (count : UInt16) (slot : Slot) (id : Int16) (kind : Kind) :
    Decidable (t.HasId count slot id kind) :=
  match h : t.muxId kind slot count with
  | .ok id' =>
      decidable_of_iff (id' = id) (by rw [HasId, h, Except.ok.injEq])
  | .error _ => .isFalse (by rw [HasId, h]; exact nofun)

/-- The check of one kind at a slot.  Instead of remembering ids it looks back at the kinds
before. -/
def checkKind (t : Table) (count : UInt16) (slot : Slot) (kind : Kind) : Except Failure Unit :=
  match t.muxId kind slot count with
  | .error failure => .error failure
  | .ok id =>
      match (Kind.all.take kind.index).find? fun before => t.HasId count slot id before with
      | some before => .error (.muxIdCollision before kind slot id)
      | none => .ok ()

/-- One more id is remembered. -/
theorem lookup_remembered {done : List Kind} {seen : List (Int16 × Kind)} {kind : Kind}
    {id : Int16}
    (hseen : ∀ id, seen.lookup id = done.find? fun before => t.HasId count slot id before)
    (hid : t.muxId kind slot count = .ok id) (hnew : seen.lookup id = none) (other : Int16) :
    ((id, kind) :: seen).lookup other =
      (done ++ [kind]).find? fun before => t.HasId count slot other before := by
  rw [List.lookup_cons, List.find?_append, ← hseen]
  by_cases hother : other = id
  · subst hother
    simp [hnew, HasId, hid]
  · have hne : ¬ t.HasId count slot other kind := by
      rw [HasId, hid, Except.ok.injEq]
      exact Ne.symm hother
    rw [beq_false_of_ne hother]
    simp [hne]

/-- **The remembered ids tell the same as a look back at all kinds before.**  The kinds `done` have
been seen, and `kinds` are to come. -/
theorem checkKinds_eq_forM {done kinds : List Kind} (hall : done ++ kinds = Kind.all)
    {seen : List (Int16 × Kind)}
    (hseen : ∀ id, seen.lookup id = done.find? fun before => t.HasId count slot id before) :
    t.checkKinds count slot seen kinds = kinds.forM (t.checkKind count slot) := by
  induction kinds generalizing done seen with
  | nil => rfl
  | cons kind kinds ih =>
      show _ = (t.checkKind count slot kind >>= fun _ => kinds.forM (t.checkKind count slot))
      cases hid : t.muxId kind slot count with
      | error failure =>
          simp only [checkKinds, checkKind, hid]
          rfl
      | ok id =>
          simp only [checkKinds, checkKind, hid, Kind.take_index hall, ← hseen]
          cases hlookup : seen.lookup id with
          | some before => rfl
          | none =>
              have hall' : (done ++ [kind]) ++ kinds = Kind.all := by
                rw [← hall, List.append_assoc, List.singleton_append]
              exact ih hall' (lookup_remembered hseen hid hlookup)

theorem checkSlot_eq_forM : t.checkSlot count slot = Kind.all.forM (t.checkKind count slot) := by
  have hnone : ∀ id : Int16, ([] : List (Int16 × Kind)).lookup id =
      ([] : List Kind).find? fun before => t.HasId count slot id before := by
    intro id
    rfl
  exact checkKinds_eq_forM (List.nil_append Kind.all) hnone

/-- The check of a kind passes when it has an id that no kind before has. -/
theorem checkKind_eq_ok_iff {kind : Kind} :
    t.checkKind count slot kind = .ok () ↔
      ∃ id, t.HasId count slot id kind ∧
        ∀ before : Kind, before.index < kind.index → ¬ t.HasId count slot id before := by
  cases hid : t.muxId kind slot count with
  | error failure =>
      simp only [checkKind, hid]
      refine iff_of_false nofun ?_
      rintro ⟨id, h, -⟩
      rw [HasId, hid] at h
      cases h
  | ok id =>
      simp only [checkKind, hid]
      cases hfind : (Kind.all.take kind.index).find? fun before => t.HasId count slot id before with
      | some before =>
          have hbefore := Kind.mem_take_index.1 (List.mem_of_find?_eq_some hfind)
          have hsame : t.HasId count slot id before := by simpa using List.find?_some hfind
          refine iff_of_false nofun ?_
          rintro ⟨id', h, hnew⟩
          rw [HasId, hid] at h
          cases h
          exact hnew before hbefore hsame
      | none =>
          refine iff_of_true rfl ⟨id, hid, ?_⟩
          intro before hbefore hsame
          have hnew := List.find?_eq_none.1 hfind before (Kind.mem_take_index.2 hbefore)
          exact hnew (decide_eq_true hsame)

/-- The check of a slot passes exactly when the kinds are separated there. -/
theorem checkSlot_eq_ok_iff : t.checkSlot count slot = .ok () ↔ t.Separates count slot := by
  rw [checkSlot_eq_forM, forM_eq_ok_iff]
  simp only [checkKind_eq_ok_iff]
  constructor
  · intro h
    choose ids hids hnew using fun kind => h kind (Kind.mem_all kind)
    refine ⟨ids, ?_, hids⟩
    intro k k' he
    rcases Nat.lt_trichotomy k.index k'.index with hlt | heq | hlt
    · exact absurd (he ▸ hids k) (hnew k' k hlt)
    · exact Kind.index_inj heq
    · exact absurd (he ▸ hids k') (hnew k k' hlt)
  · rintro ⟨ids, hinjective, hids⟩ kind -
    refine ⟨ids kind, hids kind, ?_⟩
    intro before hbefore hsame
    rw [HasId, hids before] at hsame
    have hkinds := hinjective (Except.ok.inj hsame)
    rw [hkinds] at hbefore
    exact Nat.lt_irrefl _ hbefore

/-! ### A range of slots -/

theorem checkSigns_eq_ok_iff : t.checkSigns = .ok () ↔ ∀ kind, (t.spec kind).HasSign := by
  rw [checkSigns, forM_eq_ok_iff]
  constructor
  · intro h kind
    have hkind := h kind (Kind.mem_all kind)
    by_contra hno
    rw [if_neg hno] at hkind
    cases hkind
  · exact fun h kind _ => if_pos (h kind)

/-- **The check of a table passes exactly when all signs are right and the kinds are separated at
every slot of the range.** -/
theorem verify_eq_ok_iff : t.verify first last count = .ok () ↔
    (∀ kind, (t.spec kind).HasSign) ∧
      ∀ slot, first ≤ slot → slot ≤ last → t.Separates count slot := by
  rw [← checkSigns_eq_ok_iff]
  have hslots : (slotsBetween first last).forM (t.checkSlot count) = .ok () ↔
      ∀ slot, first ≤ slot → slot ≤ last → t.Separates count slot := by
    rw [forM_eq_ok_iff]
    simp only [mem_slotsBetween, checkSlot_eq_ok_iff, and_imp]
  rw [← hslots]
  show (t.checkSigns >>= fun _ => (slotsBetween first last).forM (t.checkSlot count)) = .ok () ↔ _
  cases t.checkSigns with
  | error failure => exact iff_of_false nofun fun h => by cases h.1
  | ok done => exact (and_iff_right rfl).symm

end Table

/-! ### Descriptions -/

section Describe

variable {table : Table} {source : TypeSource} {count : UInt16} {tenant : String} {kind : Kind}
  {slot : Slot} {id : Int16}

/-- With a mux id only types can be missing. -/
theorem describe_eq_error (hid : table.muxId kind slot count = .ok id) {failure : Failure}
    (h : describe table source count tenant kind slot = .error failure) :
    ∃ name, failure = .unknownType name := by
  obtain ⟨name, -, hname⟩ := (decidedByTypes_describe hid).unknown failure h
  exact ⟨name, hname⟩

/-- A description carries the name of the cache and the mux id at the slot. -/
theorem describe_eq_ok {description : Description}
    (h : describe table source count tenant kind slot = .ok description) :
    description.name = cacheName tenant kind ∧
      table.muxId kind slot count = .ok description.muxId := by
  cases hid : table.muxId kind slot count with
  | error failure =>
      simp only [describe, hid] at h
      cases h
  | ok id =>
      cases htypes : resolveTypes source (table.spec kind).types.toList with
      | error failure =>
          simp only [describe, hid, htypes] at h
          cases h
      | ok types =>
          simp only [describe, hid, htypes] at h
          cases h
          exact ⟨rfl, rfl⟩

end Describe

end Cache

/-! ### Resolvers -/

theorem Settings.validate_eq_ok_iff {s : Settings} {table : Cache.Table} :
    s.validate table = .ok () ↔ s.key ≠ "" ∧ s.lockTimeout.isZero = false ∧ s.slots.first ≠ 0 ∧
      s.slots.first ≤ s.slots.last ∧
        table.verify s.slots.first s.slots.last s.indexedCaches = .ok () := by
  simp only [validate]
  split
  · rename_i h
    exact iff_of_false nofun fun hall => hall.1 h
  · split
    · rename_i h
      exact iff_of_false nofun fun hall => by simp [h] at hall
    · split
      · rename_i h
        exact iff_of_false nofun fun hall => hall.2.2.1 h
      · split
        · rename_i h
          exact iff_of_false nofun fun hall => UInt16.not_le.2 h hall.2.2.2.1
        · rename_i hkey htime hfirst hrange
          have hle : s.slots.first ≤ s.slots.last := UInt16.not_lt.1 hrange
          simp [hkey, htime, hfirst, hle]

/-- A resolver is made only if settings and table pass their check. -/
theorem Resolver.new_eq_ok {s : Settings} {table : Cache.Table} {source : Cache.TypeSource}
    {resolver : Resolver} (h : Resolver.new s table source = .ok resolver) :
    s.validate table = .ok () ∧ resolver = ⟨table, source⟩ := by
  cases hv : s.validate table with
  | error failure =>
      simp only [Resolver.new, hv] at h
      cases h
  | ok done =>
      simp only [Resolver.new, hv] at h
      cases h
      exact ⟨rfl, rfl⟩

end Tenancy
