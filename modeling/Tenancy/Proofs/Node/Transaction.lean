/-
**What a transaction saves.**

However a transaction ends, the store inside is either as it was or holds, under the node's key, a
change of the ledger that was loaded.  A property of ledgers that the empty ledger has and that the
five changes keep is therefore kept by every transaction of every node.

Main definitions:

* `Tenancy.Request.NamesFit` — the tenant that a request is about has a name that fits;
* `Tenancy.Ledger.Invariant` — **a property of ledgers that every change keeps**.

Main results:

* `Tenancy.Settings.inner_transact` — **what a transaction leaves in the store**;
* `Tenancy.Settings.result_settle_eq_error_iff`, `Tenancy.Settings.serve_of_transact` — how its
  answer is that of the request on the loaded ledger;
* `Tenancy.Ledger.Invariant.of_load` — the ledger that a node loads has the property;
* `Tenancy.Ledger.Invariant.keeps_transact` — a transaction keeps the property in the store.
-/

import Tenancy.Proofs.Node.Ending

set_option relaxedAutoImplicit false
set_option autoImplicit false

namespace Tenancy

/-- The name in a request fits its octet form. -/
def Request.NamesFit (r : Request) : Prop := ∀ tenant ∈ r.tenant?, Octets.TextFits tenant

instance (r : Request) : Decidable r.NamesFit :=
  inferInstanceAs (Decidable (∀ tenant ∈ r.tenant?, Octets.TextFits tenant))

theorem Request.namesFit_of_tenant {r : Request} {tenant : String} (hr : r.tenant? = some tenant)
    (ht : Octets.TextFits tenant) : r.NamesFit := by
  intro other ho
  rw [hr] at ho
  cases ho
  exact ht

namespace Settings

variable {s : Settings}

/-! ### Saving -/

/-- **What a transaction leaves in the store**: what was there, or under the node's key a change of
the ledger that the node loaded. -/
theorem inner_transact (s : Settings) (r : Request) (b : Backend) :
    (s.transact r b).2.store.inner = b.store.inner ∨
      ∃ loaded, (s.load b.store).1 = .ok loaded ∧
        ∃ tenant ∈ r.tenant?, ∃ changed, loaded.Change s.slots tenant changed ∧
          b.store.inner.save s.key (changed.advance loaded) =
            .ok (s.transact r b).2.store.inner := by
  have hending := s.ending_transact r b
  generalize (s.transact r b).1 = outcome at hending
  generalize (s.transact r b).2.store.inner = inner at hending ⊢
  cases hending with
  | committed loaded changed answer store free load serve save =>
      obtain ⟨tenant, ht, hchange⟩ := Ledger.change_of_serve serve
      exact .inr ⟨loaded, load, tenant, ht, changed, hchange, save⟩
  | locked | notLoaded | denied | answered | notSaved => exact .inl rfl

/-! ### Answering -/

/-- A failure other than that of the save is that of the request on the loaded ledger. -/
theorem result_settle_eq_error_iff {loaded : Ledger} {r : Request} {store : FaultyStore}
    {failure : Failure} (hf : ∀ fault, failure ≠ .transactionFailed fault) :
    (s.settle loaded r store).1.result = .error failure ↔
      loaded.serve s.slots r = .error failure := by
  simp only [settle]
  split
  · rename_i refusal hserve
    rw [hserve]
    simp [Outcome.result]
  · rename_i answer hserve
    rw [hserve]
    simp [Outcome.result]
  · rename_i answer changed hserve
    rw [hserve]
    split
    · simp [Outcome.result]
    · rename_i fault after hsave
      simpa [Outcome.result] using (hf _).symm

/-- With the key free and the ledger loaded, a transaction settles the request. -/
theorem transact_of_load {r : Request} {b : Backend} (hfree : s.key ∉ b.locks.held)
    {loaded : Ledger} (hload : (s.load b.store).1 = .ok loaded) :
    (s.transact r b).1 = (s.settle loaded r (s.load b.store).2).1 := by
  rw [transact_of_free hfree]
  simp only [loadAndSettle]
  split
  · rename_i ledger after heq
    rw [heq] at hload ⊢
    cases hload
    rfl
  · rename_i failure after heq
    rw [heq] at hload
    cases hload

/-- A request that is answered was served on the ledger that the node loads. -/
theorem serve_of_transact {r : Request} {b : Backend} {answer : r.Answer}
    (h : (s.transact r b).1.result = .ok answer) {loaded : Ledger}
    (hload : (s.load b.store).1 = .ok loaded) :
    ∃ changed, loaded.serve s.slots r = .ok (answer, changed) := by
  obtain ⟨found, changed, hfound, hserve⟩ := serve_of_result_eq_ok h
  rw [hload] at hfound
  cases hfound
  exact ⟨changed, hserve⟩

end Settings

/-! ### Invariants of ledgers -/

/-- **A property of ledgers that every change keeps**, at any node whose settings satisfy `S`. -/
structure Ledger.Invariant (S : Settings → Prop) (I : Ledger → Prop) : Prop where
  /-- It includes that the ledger has a form. -/
  fits : ∀ l, I l → l.Fits
  /-- The ledger with which a node begins has it. -/
  empty : ∀ s, S s → I (.empty s.slots.first)
  /-- A saved change has it if the ledger before had it. -/
  change : ∀ {s l l' tenant}, S s → Octets.TextFits tenant → I l → l.Change s.slots tenant l' →
    I (l'.advance l)

namespace Ledger.Invariant

variable {S : Settings → Prop} {I : Ledger → Prop} {s : Settings}

/-- A property that the changes keep beside an invariant is part of an invariant. -/
theorem and {J : Ledger → Prop} (hI : Invariant S I) (hempty : ∀ s, S s → J (.empty s.slots.first))
    (hchange : ∀ {s l l' tenant}, S s → I l → J l → l.Change s.slots tenant l' →
      J (l'.advance l)) : Invariant S fun l => I l ∧ J l where
  fits l h := hI.fits l h.1
  empty s hs := ⟨hI.empty s hs, hempty s hs⟩
  change hs ht h hc := ⟨hI.change hs ht h.1 hc, hchange hs h.1 h.2 hc⟩

/-- The ledger that a node loads has the property. -/
theorem of_load (hI : Invariant S I) (hs : S s) {store : FaultyStore}
    (hkept : store.inner.Keeps I) {loaded : Ledger} (h : (s.load store).1 = .ok loaded) :
    I loaded := by
  rcases (Settings.load_eq_ok h).2 with hstored | ⟨-, rfl⟩
  · exact hkept.of_load hI.fits hstored
  · exact hI.empty s hs

/-- **A transaction keeps the property in the store.** -/
theorem keeps_transact (hI : Invariant S I) (hs : S s) {r : Request} (hr : r.NamesFit)
    {b : Backend} (hkept : b.store.inner.Keeps I) :
    (s.transact r b).2.store.inner.Keeps I := by
  rcases s.inner_transact r b with hsame | ⟨loaded, hload, tenant, ht, changed, hchange, hsave⟩
  · rw [hsame]
    exact hkept
  · have hloaded := hI.of_load hs hkept hload
    exact hkept.save (hI.change hs (hr tenant ht) hloaded hchange) hsave

end Ledger.Invariant

end Tenancy
