/-
**What the names of caches tell.**

The name of a cache is that of its tenant, an underscore and the name of its kind.  A name is read
from its end, and the names of the kinds end in different words, but for `search`, which is also how
`prospective_search` ends.  So a name tells tenant and kind, except that the prospective search
cache of a tenant has a namesake: the search cache of the tenant whose name goes on with
`_prospective`.

Main definitions:

* `Tenancy.Cache.Namesakes` — **the caches that have one name**.

Main results:

* `Tenancy.Cache.Kind.eq_of_suffix` — the kinds one of whose names ends in the other;
* `Tenancy.Cache.cacheName_eq_iff` — only namesakes have one name;
* `Tenancy.Cluster.cacheNames_eq_iff` — **nor have any other caches that are started**.
-/

import Tenancy.Proofs.Cluster.Caches

set_option relaxedAutoImplicit false
set_option autoImplicit false

namespace Tenancy

namespace Cache

/-! ### Names -/

/-- What stands behind the tenant in the name of a cache. -/
def Kind.ending (kind : Kind) : List Char := '_' :: kind.name.toList

theorem toList_cacheName (tenant : String) (kind : Kind) :
    (cacheName tenant kind).toList = tenant.toList ++ kind.ending := by
  rw [cacheName, String.toList_append, String.toList_append, List.append_assoc]
  rfl

/-- One kind's name ends in another's for `prospective_search` and `search` only. -/
theorem Kind.eq_of_suffix {kind kind' : Kind} (h : kind'.ending <:+ kind.ending) :
    kind' = kind ∨ kind = .prospectiveSearch ∧ kind' = .search := by
  revert h
  cases kind <;> cases kind' <;> decide

/-- What one ending has before another. -/
theorem Kind.eq_of_append_ending {kind kind' : Kind} {rest : List Char}
    (h : kind.ending = rest ++ kind'.ending) :
    kind' = kind ∧ rest = [] ∨
      kind = .prospectiveSearch ∧ kind' = .search ∧ rest = "_prospective".toList := by
  rcases eq_of_suffix ⟨rest, h.symm⟩ with rfl | ⟨rfl, rfl⟩
  · exact .inl ⟨rfl, List.self_eq_append_left.1 h⟩
  · have hsplit : Kind.prospectiveSearch.ending =
        "_prospective".toList ++ Kind.search.ending := by decide
    rw [hsplit] at h
    exact .inr ⟨rfl, rfl, (List.append_cancel_right h).symm⟩

/-- **The caches that have one name**, by tenant and kind. -/
inductive Namesakes : String → Kind → String → Kind → Prop where
  /-- Every cache with itself. -/
  | same (tenant : String) (kind : Kind) : Namesakes tenant kind tenant kind
  /-- The prospective search cache of a tenant with a search cache. -/
  | prospective (tenant : String) :
      Namesakes tenant .prospectiveSearch (tenant ++ "_prospective") .search
  /-- And the search cache with the prospective one. -/
  | search (tenant : String) :
      Namesakes (tenant ++ "_prospective") .search tenant .prospectiveSearch

theorem Namesakes.symm {tenant tenant' : String} {kind kind' : Kind}
    (h : Namesakes tenant kind tenant' kind') : Namesakes tenant' kind' tenant kind := by
  cases h with
  | same => exact .same tenant kind
  | prospective => exact .search tenant
  | search => exact .prospective tenant'

/-- Where one tenant's name begins with another's, the endings decide. -/
theorem namesakes_of_append {tenant tenant' : String} {kind kind' : Kind} {rest : List Char}
    (htenant : tenant'.toList = tenant.toList ++ rest)
    (hending : kind.ending = rest ++ kind'.ending) : Namesakes tenant kind tenant' kind' := by
  rcases Kind.eq_of_append_ending hending with ⟨rfl, rfl⟩ | ⟨rfl, rfl, rfl⟩
  · rw [List.append_nil] at htenant
    rw [String.toList_inj.1 htenant]
    exact .same tenant kind'
  · rw [← String.toList_append] at htenant
    rw [String.toList_inj.1 htenant]
    exact .prospective tenant

/-- **Only namesakes have one name.** -/
theorem cacheName_eq_iff {tenant tenant' : String} {kind kind' : Kind} :
    cacheName tenant kind = cacheName tenant' kind' ↔ Namesakes tenant kind tenant' kind' := by
  constructor
  · intro h
    have hchars := congrArg String.toList h
    rw [toList_cacheName, toList_cacheName] at hchars
    rcases List.append_eq_append_iff.1 hchars with ⟨rest, ht, he⟩ | ⟨rest, ht, he⟩
    · exact namesakes_of_append ht he
    · exact (namesakes_of_append ht he).symm
  · intro h
    have hword (tenant : String) : cacheName tenant .prospectiveSearch =
        cacheName (tenant ++ "_prospective") .search := by
      rw [← String.toList_inj, toList_cacheName, toList_cacheName, String.toList_append,
        List.append_assoc]
      rfl
    cases h with
    | same => rfl
    | prospective => exact hword tenant
    | search => exact (hword tenant').symm

end Cache

/-! ### Caches that are started -/

namespace Cluster

variable {n m : Nat}

/-- The name of the cache that a reply describes. -/
def Reply.cacheName? : Except Failure Reply → Option String
  | .ok (.cache description) => some description.name
  | _ => none

/-- A cache is started under its name. -/
theorem cacheName?_startCache {c : Cluster n} {i : Fin n} {tenant name : String}
    {kind : Cache.Kind}
    (h : Reply.cacheName? (c.perform (.startCache i tenant kind)).1 = some name) :
    name = Cache.cacheName tenant kind := by
  simp only [perform, throughResolver] at h
  cases hresolver : (c.node i).resolver with
  | none =>
      simp only [hresolver] at h
      cases h
  | some resolver =>
      simp only [hresolver] at h
      cases hanswer : ((c.node i).startCache resolver tenant kind c.backend).1 with
      | error failure =>
          rw [hanswer] at h
          cases h
      | ok description =>
          rw [hanswer] at h
          cases h
          obtain ⟨lease, -, -, hdescribe⟩ := Node.startCache_eq_ok hanswer
          exact (Cache.describe_eq_ok hdescribe).1

/-- **Two caches have one name exactly if they are namesakes**, and so have two caches that are
started, at any nodes of any clusters. -/
theorem cacheNames_eq_iff (c : Cluster n) (c' : Cluster m) (i : Fin n) (j : Fin m)
    (tenant tenant' : String) (kind kind' : Cache.Kind) :
    (Cache.cacheName tenant kind = Cache.cacheName tenant' kind' ↔
        Cache.Namesakes tenant kind tenant' kind') ∧
      ∀ name name', Reply.cacheName? (c.perform (.startCache i tenant kind)).1 = some name →
        Reply.cacheName? (c'.perform (.startCache j tenant' kind')).1 = some name' →
        (name = name' ↔ Cache.Namesakes tenant kind tenant' kind') := by
  refine ⟨Cache.cacheName_eq_iff, fun name name' h h' => ?_⟩
  rw [cacheName?_startCache h, cacheName?_startCache h']
  exact Cache.cacheName_eq_iff

/-- A node gets a resolver that knows the types of the standard table. -/
def typedNodes (i : Fin 2) : Cluster 2 :=
  (smallNodes.perform (.resolve i .standard Cache.Registry.standard.resolve?)).2

theorem namesakes_of_typedNodes :
    Cache.cacheName "a" .prospectiveSearch = Cache.cacheName "a_prospective" .search ∧
      Cache.Namesakes "a" .prospectiveSearch "a_prospective" .search := by
  have hfirst : Reply.cacheName?
      ((typedNodes 0).perform (.startCache 0 "a" .prospectiveSearch)).1 =
        some "a_prospective_search" := by decide +kernel
  have hsecond : Reply.cacheName?
      ((typedNodes 0).perform (.startCache 0 "a_prospective" .search)).1 =
        some "a_prospective_search" := by decide +kernel
  obtain ⟨hnames, hstarted⟩ := cacheNames_eq_iff (typedNodes 0) (typedNodes 0) 0 0 "a"
    "a_prospective" .prospectiveSearch .search
  exact ⟨hnames.2 (.prospective "a"), (hstarted _ _ hfirst hsecond).1 rfl⟩

/-- **Caches of two tenants can carry one name.** -/
theorem namesakes_started :
    "a" ≠ "a_prospective" ∧
      Cache.cacheName "a" .prospectiveSearch = Cache.cacheName "a_prospective" .search ∧
      ((typedNodes 0).run [.startCache 0 "a" .prospectiveSearch,
          .startCache 0 "a_prospective" .search]).1.map Reply.cacheName? =
        [some "a_prospective_search", some "a_prospective_search"] := by
  refine ⟨by decide, Cache.cacheName_eq_iff.2 (.prospective "a"), ?_⟩
  decide +kernel

end Cluster

end Tenancy
