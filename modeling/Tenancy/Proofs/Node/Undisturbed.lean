/-
**Transactions that meet no trouble.**

While the key is free, the store fails on no demand and the ledger can be loaded, a transaction is
what the request makes of the ledger, and it leaves things so.

Main definitions:

* `Tenancy.Backend.Undisturbed` — **nothing stands in the way of transactions under a key**.

Main results:

* `Tenancy.Settings.transact_of_denied` — a request that is denied leaves everything as it was;
* `Tenancy.Settings.transact_of_changed` — **a change is saved, and it is what is loaded next**.
-/

import Tenancy.Proofs.Node.Ending
import Tenancy.Proofs.Store.Agree

set_option relaxedAutoImplicit false
set_option autoImplicit false

namespace Tenancy

/-- **Nothing stands in the way of transactions under a key**: it is free, the store fails on no
demand, and the ledger can be loaded, or there is none yet. -/
structure Backend.Undisturbed (b : Backend) (key : String) : Prop where
  free : key ∉ b.locks.held
  reliable : b.store.Reliable
  readable : ∃ stored, b.store.inner.load key = .ok stored

namespace Settings

variable {s : Settings} {r : Request} {b : Backend} {stored : Option Ledger}

/-- A node loads the ledger that is stored, or begins with an empty one. -/
theorem load_of_reliable {store : FaultyStore} (h : store.Reliable)
    (hl : store.inner.load s.key = .ok stored) :
    s.load store = (.ok (stored.getD (.empty s.slots.first)), store) := by
  rw [load, h.load, hl]
  cases stored <;> rfl

/-- A request that is denied leaves everything as it was. -/
theorem transact_of_denied (h : b.Undisturbed s.key) (hl : b.store.inner.load s.key = .ok stored)
    {failure : Failure}
    (hserve : (stored.getD (.empty s.slots.first)).serve s.slots r = .error failure) :
    s.transact r b = (.refused failure, b) := by
  rw [transact_of_free h.free, loadAndSettle, load_of_reliable h.reliable hl]
  simp only [settle, hserve]

/-- **A change is saved, and it is what is loaded next**, if its form can be read. -/
theorem transact_of_changed (h : b.Undisturbed s.key) (hl : b.store.inner.load s.key = .ok stored)
    {answer : r.Answer} {changed saved : Ledger}
    (hserve : (stored.getD (.empty s.slots.first)).serve s.slots r = .ok (answer, some changed))
    (hsaved : saved = changed.advance (stored.getD (.empty s.slots.first))) (hfits : saved.Fits) :
    (s.transact r b).1.result = .ok answer ∧ (s.transact r b).2.Undisturbed s.key ∧
      (s.transact r b).2.store.inner.load s.key = .ok (some saved) := by
  subst hsaved
  obtain ⟨inner, hsave⟩ := Store.exists_save_of_load hl
    (changed.advance (stored.getD (.empty s.slots.first)))
  have hafter := Store.load_save_self (fun _ _ => hfits) hsave
  rw [transact_of_free h.free, loadAndSettle, load_of_reliable h.reliable hl]
  simp only [settle, hserve, h.reliable.save_of_ok hsave]
  exact ⟨rfl, ⟨h.free, ⟨h.reliable.loads, h.reliable.saves⟩, _, hafter⟩, hafter⟩

end Settings

end Tenancy
