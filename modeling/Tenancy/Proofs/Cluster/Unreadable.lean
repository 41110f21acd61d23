/-
**A record that cannot be read stays as it is.**

A node that cannot load its ledger gives the transaction up; it does not begin with an empty ledger,
as it does where there is none, and so it never saves one over what it could not read.  Nodes of
other keys write other files.  Whatever is done through the nodes, a file that was cut off keeps its
octets, and every request about its key fails for as long.

Main definitions:

* `Tenancy.Cluster.Unreadable` — **what is under a key cannot be read, and nobody gets past it**.

Main results:

* `Tenancy.Settings.transact_of_unreadable` — a transaction that cannot load fails and leaves the
  store as it was;
* `Tenancy.Cluster.content?_call`, `Tenancy.Cluster.content?_run` — no call and no run changes what
  cannot be read;
* `Tenancy.Cluster.decode_and_unreadable_of_prefix` — **a truncated record is rejected and stays**.
-/

import Tenancy.Proofs.Cluster.Atomicity
import Tenancy.Proofs.Cluster.Calls
import Tenancy.Proofs.Ledger.Truncated

set_option relaxedAutoImplicit false
set_option autoImplicit false

namespace Tenancy

/-! ### Transactions -/

namespace Settings

variable {s : Settings} {b : Backend} {fault : StorageFault}

/-- A node does not load what the store refuses; the refusal is passed on, unless the load was to
fail anyway. -/
theorem load_of_unreadable {store : FaultyStore} (h : store.inner.load s.key = .error fault) :
    ∃ cause, (s.load store).1 = .error (.transactionFailed (.load s.key cause)) ∧
      (store.loadFails = false → cause = fault) := by
  simp only [load, FaultyStore.load, h]
  cases store.loadFails with
  | true => exact ⟨_, rfl, fun hoff => by cases hoff⟩
  | false => exact ⟨fault, rfl, fun _ => rfl⟩

/-- **A transaction that cannot load fails and leaves the store as it was.** -/
theorem transact_of_unreadable (free : s.key ∉ b.locks.held)
    (h : b.store.inner.load s.key = .error fault) (r : Request) :
    (∃ cause, (s.transact r b).1.result = .error (.transactionFailed (.load s.key cause)) ∧
      (b.store.loadFails = false → cause = fault)) ∧
    (s.transact r b).2.store.inner = b.store.inner := by
  obtain ⟨cause, hload, hcause⟩ := load_of_unreadable h
  have hinner := s.inner_load b.store
  rw [transact_of_free free, loadAndSettle]
  generalize s.load b.store = loaded at hload hinner ⊢
  obtain ⟨answer, store⟩ := loaded
  obtain rfl : answer = .error (.transactionFailed (.load s.key cause)) := hload
  exact ⟨⟨cause, rfl, hcause⟩, hinner⟩

end Settings

namespace Cluster

variable {n : Nat} {c c' : Cluster n} {key : String} {content : Octets}
  {fault : Octets.Malformed}

/-! ### Calls and steps -/

/-- **No call changes what cannot be read**: neither do the nodes of its key nor any others. -/
theorem content?_call (h : ∃ fault, c.stored key = .error fault) (i : Fin n) (r : Request) :
    (c.call i r).2.backend.store.inner.content? key = c.backend.store.inner.content? key := by
  obtain ⟨fault, hstored⟩ := h
  have hending := Settings.ending_transact (c.node i).settings r c.backend
  show ((c.node i).settings.transact r c.backend).2.store.inner.content? key = _
  generalize ((c.node i).settings.transact r c.backend).1 = outcome at hending
  generalize ((c.node i).settings.transact r c.backend).2.store.inner = inner at hending ⊢
  cases hending with
  | committed loaded changed answer store free load serve save =>
      -- what was loaded to be changed was under another key
      have hne : (c.node i).settings.key ≠ key := by
        rintro rfl
        obtain ⟨-, hsome | ⟨hnone, -⟩⟩ := Settings.load_eq_ok load
        · cases hstored.symm.trans hsome
        · cases hstored.symm.trans hnone
      rw [Store.content?_save save, if_neg hne]
  | locked | notLoaded | denied | answered | notSaved => rfl

/-- Nor do calls one after the other. -/
theorem content?_makes {log : List (Fin n × Served)} (hfile : Store.HasFile key)
    (hdecode : Ledger.decode content = .error fault) (hm : Makes c log c')
    (h : c.backend.store.inner.content? key = some (.octets content)) :
    c'.backend.store.inner.content? key = some (.octets content) := by
  induction hm with
  | call c i names =>
      obtain ⟨text, hload⟩ := Store.load_of_malformed hfile h hdecode
      rw [content?_call ⟨_, hload⟩, h]
  | quiet hq => rw [hq.inner, h]
  | append first rest ih ih' => exact ih' (ih h)

/-- **No run changes what cannot be read**, if it leaves the ledgers to the nodes. -/
theorem content?_run {steps : List (Step n)} (hsteps : ∀ step ∈ steps, step.ThroughNodes)
    (hfile : Store.HasFile key) (hdecode : Ledger.decode content = .error fault)
    (h : c.backend.store.inner.content? key = some (.octets content)) :
    (c.run steps).2.backend.store.inner.content? key = some (.octets content) := by
  -- induction on the steps, over the cluster from which they begin
  induction steps generalizing c with
  | nil => exact h
  | cons step steps ih =>
      refine ih (fun other ho => hsteps other (List.mem_cons_of_mem _ ho)) ?_
      have hstep := hsteps step List.mem_cons_self
      cases hrestart : step.isRestart with
      | true =>
          -- the nodes are started anew over the same store
          rw [Step.eq_restart hrestart]
          exact h
      | false =>
          obtain ⟨log, hm, -⟩ := makes_perform c ⟨hstep, hrestart⟩
          exact content?_makes hfile hdecode hm h

/-! ### Truncated records -/

/-- **What is under a key cannot be read, and nobody gets past it.** -/
structure Unreadable (c : Cluster n) (key : String) (content : Octets) : Prop where
  /-- These octets are the content of the key's file. -/
  content : c.backend.store.inner.content? key = some (.octets content)
  /-- They are no ledger. -/
  load : ∃ text, c.stored key = .error (.deserialization text)
  /-- While the key is free, every request at a node of the key fails with the load, and nothing is
  changed. -/
  refused : ∀ (i : Fin n) (r : Request), (c.node i).settings.key = key →
    key ∉ c.backend.locks.held →
    (∃ cause, (c.call i r).1 = .error (.transactionFailed (.load key cause)) ∧
      (c.backend.store.loadFails = false → c.stored key = .error cause)) ∧
    (c.call i r).2.backend.store.inner = c.backend.store.inner

theorem unreadable_of_content (hfile : Store.HasFile key)
    (hdecode : Ledger.decode content = .error fault)
    (h : c.backend.store.inner.content? key = some (.octets content)) :
    c.Unreadable key content := by
  obtain ⟨text, hload⟩ := Store.load_of_malformed hfile h hdecode
  refine ⟨h, ⟨text, hload⟩, ?_⟩
  rintro i r rfl free
  obtain ⟨⟨cause, hanswer, hcause⟩, hinner⟩ := Settings.transact_of_unreadable free hload r
  refine ⟨⟨cause, hanswer, fun hoff => ?_⟩, hinner⟩
  rw [hcause hoff]
  exact hload

/-- **A truncated record is rejected and stays.**  A proper beginning of a form is no form,
whichever of its parts is cut; while it is the content of a key's file, loads and requests fail, and
nothing that is done through the nodes of this or of any other key changes it. -/
theorem decode_and_unreadable_of_prefix {l : Ledger} (hl : l.Fits) {p : Octets}
    (hp : p <+: l.encode) (hne : p ≠ l.encode) :
    (∃ fault : Octets.Malformed, fault.IsCut ∧ Ledger.decode p = .error fault) ∧
      ∀ {n : Nat} (c : Cluster n) (key : String), Store.HasFile key →
        c.backend.store.inner.content? key = some (.octets p) →
        ∀ steps : List (Step n), (∀ step ∈ steps, step.ThroughNodes) →
          (c.run steps).2.Unreadable key p := by
  obtain ⟨fault, hcut, hdecode⟩ := Ledger.exists_cut_of_prefix hl hp hne
  refine ⟨⟨fault, hcut, hdecode⟩, ?_⟩
  intro n c key hfile hcontent steps hsteps
  exact unreadable_of_content hfile hdecode (content?_run hsteps hfile hdecode hcontent)

/-- Two nodes over a directory in which the last octet of their key's file is missing. -/
def overTruncated : Cluster 2 :=
  .new (.directory ((Directory.empty "d").write (Store.recordFile Settings.standard.key)
    (((Ledger.empty 4).put "a" ⟨2, 3⟩).encode.take 40))) #v[.standard, .standard]

theorem unreadable_overTruncated :
    (∃ fault, Octets.Malformed.IsCut fault ∧
      Ledger.decode (((Ledger.empty 4).put "a" ⟨2, 3⟩).encode.take 40) = .error fault) ∧
    (overTruncated.run [.request 0 (.start "b"), .restart, .request 1 (.stop "a")]).2.Unreadable
      Settings.standard.key (((Ledger.empty 4).put "a" ⟨2, 3⟩).encode.take 40) := by
  have hfits : ((Ledger.empty 4).put "a" ⟨2, 3⟩).Fits := by
    refine ⟨fun tenant lease h => ?_, by decide +kernel, by decide +kernel⟩
    rw [Ledger.lease?_put, Ledger.lease?_empty] at h
    split at h
    · subst_vars
      decide
    · cases h
  obtain ⟨hcut, hruns⟩ := decode_and_unreadable_of_prefix hfits
    (List.take_prefix 40 _) (by decide +kernel)
  exact ⟨hcut, hruns overTruncated Settings.standard.key (by decide +kernel) (by decide +kernel) _
    (by decide)⟩

end Cluster

end Tenancy
