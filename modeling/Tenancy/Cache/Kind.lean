/-
**Cache kinds.**

Every tenant owns one cache of each kind.  The kinds come in a fixed order, which is the order of
their numbers in stored forms, and each has a fixed name.

Main definitions:

* `Tenancy.Cache.Kind` — **the six kinds**;
* `Tenancy.Cache.Kind.all` — the kinds in order;
* `Tenancy.Cache.Kind.name`, `Tenancy.Cache.Kind.ofName?` — the name of a kind, and the kind of a
  name;
* `Tenancy.Cache.Kind.index`, `Tenancy.Cache.Kind.ofIndex?` — the number of a kind, and back.

Main results:

* `Tenancy.Cache.Kind.mem_all` — the list is complete;
* `Tenancy.Cache.Kind.ofName?_name`, `Tenancy.Cache.Kind.ofIndex?_index` — names and numbers are
  read back;
* `Tenancy.Cache.Kind.mem_take_index` — the kinds before one have smaller numbers.
-/

set_option relaxedAutoImplicit false
set_option autoImplicit false

namespace Tenancy.Cache

/-- **What a tenant cache is for.** -/
inductive Kind where
  | default
  | search
  | prospectiveSearch
  | tasks
  | logs
  | channel
deriving DecidableEq, Repr, Inhabited

namespace Kind

/-- The kinds in order. -/
def all : List Kind := [.default, .search, .prospectiveSearch, .tasks, .logs, .channel]

/-- The name of a kind. -/
def name : Kind → String
  | .default => "default"
  | .search => "search"
  | .prospectiveSearch => "prospective_search"
  | .tasks => "tasks"
  | .logs => "logs"
  | .channel => "channel"

/-- The kind with the given name. -/
def ofName? (s : String) : Option Kind := all.find? (·.name == s)

/-- The place of a kind in the order, from zero. -/
def index : Kind → Nat
  | .default => 0
  | .search => 1
  | .prospectiveSearch => 2
  | .tasks => 3
  | .logs => 4
  | .channel => 5

/-- The kind at the given place. -/
def ofIndex? (i : Nat) : Option Kind := all[i]?

theorem mem_all (k : Kind) : k ∈ all := by cases k <;> decide

theorem nodup_all : all.Nodup := by decide

theorem ofName?_name (k : Kind) : ofName? k.name = some k := by cases k <;> decide

theorem ofIndex?_index (k : Kind) : ofIndex? k.index = some k := by cases k <;> rfl

theorem index_lt (k : Kind) : k.index < all.length := by cases k <;> decide

/-- A number names a kind only if it is that kind's own. -/
theorem index_of_ofIndex? {i : Nat} {k : Kind} (h : ofIndex? i = some k) : k.index = i := by
  match i, h with
  | 0, h | 1, h | 2, h | 3, h | 4, h | 5, h => cases h; rfl

theorem index_inj {a b : Kind} (h : a.index = b.index) : a = b := by
  have hnumber := ofIndex?_index a
  rw [h, ofIndex?_index b] at hnumber
  exact (Option.some.inj hnumber).symm

/-- The kinds ascend by their numbers. -/
theorem pairwise_all : all.Pairwise fun a b => a.index < b.index := by decide

/-- The kinds before one are those with smaller numbers. -/
theorem mem_take_index {a b : Kind} : a ∈ all.take b.index ↔ a.index < b.index := by
  cases a <;> cases b <;> decide

/-- The kinds before one, where the list of all kinds is cut. -/
theorem take_index {before after : List Kind} {k : Kind} (h : before ++ k :: after = all) :
    all.take k.index = before := by
  have hplace : all[before.length]? = some k := by
    rw [← h]
    simp
  rw [index_of_ofIndex? hplace, ← h, List.take_left]

end Kind

end Tenancy.Cache
