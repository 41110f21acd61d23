/-
**A call changes nothing, or it saves the next version.**

Whatever is stored, held or about to fail, a call of a node has one of two effects.  If it is a start
that is answered or a stop that dropped a reference, the next version of the ledger is saved under
the node's own key.  Otherwise the store keeps every content as it was, be it a ledger or octets that
are none.  In both cases the same resources are held afterwards as before.

Main results:

* `Tenancy.Cluster.committed_save` — what a commit leaves under each key;
* `Tenancy.Cluster.call_atomic` — **a call changes nothing, or it saves the next version under its
  own key**.
-/

import Tenancy.Proofs.Cluster.Reachable
import Tenancy.Proofs.Node.Version

set_option relaxedAutoImplicit false
set_option autoImplicit false

namespace Tenancy

namespace Cluster

variable {n : Nat}

/-- What a commit of a node leaves under the keys of the store: the next version of the ledger that
was loaded under the node's own key, and under other keys what was there. -/
theorem committed_save {s : Settings} {r : Request} {b : Backend} {loaded changed : Ledger}
    {answer : r.Answer} {store : Store} (load : (s.load b.store).1 = .ok loaded)
    (serve : loaded.serve s.slots r = .ok (answer, some changed))
    (save : b.store.inner.save s.key (changed.advance loaded) = .ok store) :
    (∀ other, s.key ≠ other → store.content? other = b.store.inner.content? other) ∧
      store.content? s.key = some (b.store.inner.contentOf (changed.advance loaded)) ∧
      (r.NamesFit → b.store.inner.Addressable →
        store.load s.key = .ok (some (changed.advance loaded))) := by
  refine ⟨fun other hne => ?_, ?_, fun hnames hroom => ?_⟩
  · rw [Store.content?_save save, if_neg hne]
  · rw [Store.content?_save save, if_pos rfl]
  · exact Settings.load_of_save load serve save hnames (hroom.hasRoom (by decide))

/-- **A call changes nothing, or it saves the next version under its own key.**  The third part is
about a start that is answered and a stop that dropped a reference: what every other key holds is
unchanged, and the record before, or an empty one where there was none, is followed by one whose
version is one higher, which later loads find. -/
theorem call_atomic (c : Cluster n) (i : Fin n) (r : Request) :
    (c.call i r).2.backend.locks = c.backend.locks ∧
    (¬ r.Commits (c.call i r).1 →
      (c.call i r).2.backend.store.inner = c.backend.store.inner) ∧
    (r.Commits (c.call i r).1 →
      (∀ other, (c.node i).settings.key ≠ other →
        (c.call i r).2.backend.store.inner.content? other =
          c.backend.store.inner.content? other) ∧
      ∃ before after : Ledger,
        (c.stored (c.node i).settings.key = .ok (some before) ∨
          c.stored (c.node i).settings.key = .ok none ∧
            before = .empty (c.node i).settings.slots.first) ∧
        (c.call i r).2.backend.store.inner.content? (c.node i).settings.key =
          some (c.backend.store.inner.contentOf after) ∧
        (before.version.toNat + 1 < UInt64.size →
          after.version.toNat = before.version.toNat + 1) ∧
        (r.NamesFit → c.backend.store.inner.Addressable →
          (c.call i r).2.stored (c.node i).settings.key = .ok (some after))) := by
  refine ⟨Settings.locks_transact .., ?_⟩
  -- only the fifth of the six ways commits, and the others leave the store inside as it was
  have hending := Settings.ending_transact (c.node i).settings r c.backend
  show (¬ r.Commits ((c.node i).settings.transact r c.backend).1.result →
      ((c.node i).settings.transact r c.backend).2.store.inner = _) ∧
    (r.Commits ((c.node i).settings.transact r c.backend).1.result →
      (∀ other, _ → ((c.node i).settings.transact r c.backend).2.store.inner.content? other = _) ∧
      ∃ before after : Ledger, _ ∧
        ((c.node i).settings.transact r c.backend).2.store.inner.content? _ = _ ∧ _ ∧
        (_ → _ → ((c.node i).settings.transact r c.backend).2.store.inner.load _ = _))
  generalize (((c.node i).settings.transact r c.backend).1) = outcome at hending ⊢
  generalize (((c.node i).settings.transact r c.backend).2.store.inner) = inner at hending ⊢
  cases hending with
  | locked held => exact ⟨fun _ => rfl, fun h => (r.not_commits_error _ h).elim⟩
  | notLoaded fault free load => exact ⟨fun _ => rfl, fun h => (r.not_commits_error _ h).elim⟩
  | denied loaded failure free load serve =>
      exact ⟨fun _ => rfl, fun h => (r.not_commits_error _ h).elim⟩
  | answered loaded answer free load serve =>
      refine ⟨fun _ => rfl, fun h => ?_⟩
      have hsome := (Ledger.commits_iff_of_serve serve).1 h
      cases hsome
  | committed loaded changed answer store free load serve save =>
      have hcommits : r.Commits (.ok answer) := (Ledger.commits_iff_of_serve serve).2 rfl
      refine ⟨fun hno => absurd hcommits hno, fun _ => ?_⟩
      obtain ⟨hothers, hown, hloads⟩ := committed_save load serve save
      refine ⟨hothers, loaded, changed.advance loaded, (Settings.load_eq_ok load).2, hown, ?_,
        hloads⟩
      intro hroom
      show (loaded.version + 1).toNat = loaded.version.toNat + 1
      rw [UInt64.toNat_add]
      exact Nat.mod_eq_of_lt hroom
  | notSaved loaded changed answer fault free load serve =>
      exact ⟨fun _ => rfl, fun h => (r.not_commits_error _ h).elim⟩

/-- A node over a directory in which the file of another key holds no ledger. -/
def besideUnreadable : Cluster 1 :=
  .new (.directory ((Directory.empty "d").write (Store.recordFile "other") [7])) #v[.standard]

theorem addressable_besideUnreadable : besideUnreadable.backend.store.inner.Addressable := by
  intro file content hfile
  change ((∅ : Std.ExtTreeMap String Octets).insert (Store.recordFile "other") [7])[file]? =
    some content at hfile
  rw [Std.ExtTreeMap.getElem?_insert] at hfile
  split at hfile
  · cases hfile
    decide
  · simp at hfile

theorem committed_besideUnreadable :
    Request.Commits (.start "a") (besideUnreadable.call 0 (.start "a")).1 ∧
      (besideUnreadable.call 0 (.start "a")).2.backend.store.inner.content? "other" =
        some (.octets [7]) ∧
      ∃ after, (besideUnreadable.call 0 (.start "a")).2.stored Settings.standard.key =
          .ok (some after) ∧ after.version.toNat = 1 := by
  have hsettings : (besideUnreadable.node 0).settings = .standard := by decide +kernel
  have hanswer : (besideUnreadable.call 0 (.start "a")).1 = .ok ⟨1, 2⟩ := by decide +kernel
  have hnone : besideUnreadable.stored Settings.standard.key = .ok none := by decide +kernel
  have hatomic := call_atomic besideUnreadable 0 (.start "a")
  rw [hsettings, hanswer, hnone] at hatomic
  obtain ⟨-, -, hcommitted⟩ := hatomic
  obtain ⟨hothers, before, after, hbefore, -, hversion, hstored⟩ := hcommitted trivial
  refine ⟨hanswer ▸ trivial, ?_, after, hstored (by decide) addressable_besideUnreadable, ?_⟩
  · rw [hothers "other" (by decide)]
    decide +kernel
  · rcases hbefore with hsome | ⟨-, rfl⟩
    · cases hsome
    · exact hversion (by decide)

end Cluster

end Tenancy
