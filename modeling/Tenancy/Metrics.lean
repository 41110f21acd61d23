/-
**Meters.**

Three kinds of meter: a counter only grows, a gauge holds the last value written, and a labelled
counter keeps a count for each label it has seen.

Main definitions:

* `Tenancy.Metrics.Counter`, `Tenancy.Metrics.Gauge` — a growing count and a value;
* `Tenancy.Metrics.Tally`, `Tenancy.Metrics.LabelledCounter` — counts by label, and the same under a
  name.

Main results:

* `Tenancy.Metrics.Tally.count_inc` — **counting under one label leaves the others alone**.
-/

import Std.Data.ExtTreeMap

set_option relaxedAutoImplicit false
set_option autoImplicit false

namespace Tenancy.Metrics

/-! ### Counters and gauges -/

/-- A count that only grows. -/
structure Counter where
  name : String
  value : Nat
deriving DecidableEq, Repr

namespace Counter

/-- A counter that has not counted yet. -/
def new (name : String) : Counter := ⟨name, 0⟩

/-- Counts one more. -/
def inc (c : Counter) : Counter := { c with value := c.value + 1 }

@[simp] theorem value_inc (c : Counter) : c.inc.value = c.value + 1 := rfl

end Counter

/-- A value that moves both ways. -/
structure Gauge where
  value : Int
deriving DecidableEq, Repr

namespace Gauge

/-- A gauge at rest. -/
def new : Gauge := ⟨0⟩

/-- The last value written stands. -/
def set (_ : Gauge) (value : Int) : Gauge := ⟨value⟩

end Gauge

/-! ### Counts by label -/

/-- **A count for each label that has been counted.** -/
structure Tally where
  counts : Std.ExtTreeMap String Nat
deriving DecidableEq

namespace Tally

/-- The tally of nothing. -/
def empty : Tally := ⟨∅⟩

/-- The count of a label, zero if it was never counted. -/
def count (t : Tally) (label : String) : Nat := t.counts.getD label 0

/-- Counts a label once more. -/
def inc (t : Tally) (label : String) : Tally :=
  ⟨t.counts.insert label (t.count label + 1)⟩

/-- The labels counted so far, ascending, with their counts. -/
def toList (t : Tally) : List (String × Nat) := t.counts.toList

@[simp] theorem count_empty (label : String) : empty.count label = 0 := by
  simp [count, empty]

/-- **Counting a label adds one to its count and to no other.** -/
theorem count_inc (t : Tally) (label other : String) :
    (t.inc label).count other = t.count other + if label = other then 1 else 0 := by
  simp only [count, inc, Std.ExtTreeMap.getD_insert, Std.LawfulEqCmp.compare_eq_iff_eq]
  split
  · rename_i h; subst h; rfl
  · rfl

end Tally

/-- Counts by label under a name; `label` says what the labels are. -/
structure LabelledCounter where
  name : String
  label : String
  tally : Tally
deriving DecidableEq

namespace LabelledCounter

/-- A labelled counter that has not counted yet. -/
def new (name label : String) : LabelledCounter := ⟨name, label, .empty⟩

/-- Counts a label once more. -/
def inc (c : LabelledCounter) (value : String) : LabelledCounter :=
  { c with tally := c.tally.inc value }

/-- The count of a label. -/
def count (c : LabelledCounter) (value : String) : Nat := c.tally.count value

end LabelledCounter

end Tenancy.Metrics
