/-
**A form that was cut off is no ledger.**

The reader of ledgers looks at octets from the front, field by field, and counts what it takes by
the lengths that it has read.  Whatever part of a form is missing at its end, the reader comes to
ask for it; so no beginning of a form is read as another, smaller ledger.  A file with such a
content cannot be loaded.

Main results:

* `Tenancy.Ledger.steady_readImage` — more octets do not change what the reader answers;
* `Tenancy.Ledger.exists_cut_of_prefix` — **a proper beginning of a form is refused as cut off**;
* `Tenancy.Store.load_of_malformed` — a content that is no ledger is refused by loads.
-/

import Tenancy.Proofs.Octets.Cut
import Tenancy.Proofs.Store.Saved

set_option relaxedAutoImplicit false
set_option autoImplicit false

namespace Tenancy

namespace Ledger

open Octets (Malformed Reader)

/-! ### The reader -/

theorem steady_readSlot : readSlot.Steady :=
  .bind (.word 2) fun n => .pure (UInt16.ofNat n)

theorem steady_readLease : readLease.Steady :=
  .bind .text fun _ => .bind (.word 4) fun _ => .bind steady_readSlot fun _ => .pure _

/-- **More octets do not change what the reader answers.** -/
theorem steady_readImage : readImage.Steady :=
  .bind steady_readSlot fun _ => .bind (.list steady_readLease) fun _ =>
    .bind (.list steady_readSlot) fun _ => .bind (.word 8) fun _ => .pure _

/-! ### Beginnings of a form -/

/-- **A proper beginning of a form is refused as cut off.** -/
theorem exists_cut_of_prefix {l : Ledger} (h : l.Fits) {p : Octets} (hp : p <+: l.encode)
    (hne : p ≠ l.encode) : ∃ fault : Malformed, fault.IsCut ∧ decode p = .error fault := by
  have hform : readImage l.encode = .ok (l.image, []) := by
    have hread := readImage_write h.image []
    rwa [List.append_nil] at hread
  obtain ⟨fault, hcut, hp⟩ := steady_readImage.cut hform hp hne
  refine ⟨fault, hcut, ?_⟩
  simp only [decode, Reader.read, hp, Except.map]

end Ledger

namespace Store

/-- **A content that is no ledger is refused by loads.** -/
theorem load_of_malformed {store : Store} {key : String} {content : Octets}
    {fault : Octets.Malformed} (hfile : HasFile key)
    (hcontent : store.content? key = some (.octets content))
    (hdecode : Ledger.decode content = .error fault) :
    ∃ text, store.load key = .error (.deserialization text) := by
  cases store with
  | memory ledgers =>
      rw [content?, Option.map_eq_some_iff] at hcontent
      obtain ⟨ledger, -, hledger⟩ := hcontent
      cases hledger
  | directory dir =>
      rw [content?, Option.map_eq_some_iff] at hcontent
      obtain ⟨found, hfound, hsame⟩ := hcontent
      cases hsame
      simp only [load, Directory.load, if_pos hfile, hfound, hdecode]
      exact ⟨_, rfl⟩

end Store

end Tenancy
