/-
**Shard names.**

Which shard has which name, by the number of the shard, and the properties that say so.  A property
names the shard `i` if its key is a marker followed by the decimal digits of `i`; other properties
mean something else and are skipped, an empty name is ignored, and of several names for one shard
the last counts.

In a properties text every line is a property.  Blank lines and lines that begin with `#` or `!` are
skipped.  The key ends at the first `=`, `:` or blank; blanks, one `=` or `:`, and more blanks
separate it from the name.  A line whose key does not end is a fault.

Main definitions:

* `Tenancy.Routing.Names` — **the named shards**;
* `Tenancy.Routing.shardIndex?` — the shard that a key is about;
* `Tenancy.Routing.Names.ofPairs` — the names in a list of properties;
* `Tenancy.Routing.Line` — a line of a properties text, and `Tenancy.Routing.readLine` reads it;
* `Tenancy.Routing.Names.parse` — **the names in a properties text**.

Main results:

* `Tenancy.Routing.Names.name?_withName` — naming one shard leaves the others alone;
* `Tenancy.Routing.Names.ofPairs_append` — properties count in order;
* `Tenancy.Routing.readLines_append` — **a text is read line by line**, the lines of the second part
  counted on from the first.
-/

import Std.Data.ExtTreeMap
import Tenancy.Failure
import Tenancy.Text.Blank

set_option relaxedAutoImplicit false
set_option autoImplicit false

namespace Tenancy.Routing

open Text

/-! ### Names by shard -/

/-- **The named shards**, by their number. -/
structure Names where
  byIndex : Std.ExtTreeMap Nat String
deriving DecidableEq

namespace Names

/-- No shard has a name. -/
def empty : Names := ⟨∅⟩

/-- Names the shard `index`. -/
def withName (n : Names) (index : Nat) (name : String) : Names := ⟨n.byIndex.insert index name⟩

/-- The name of the shard `index`. -/
def name? (n : Names) (index : Nat) : Option String := n.byIndex[index]?

/-- The named shards in order, with their names. -/
def toList (n : Names) : List (Nat × String) := n.byIndex.toList

/-- How many shards have a name. -/
def size (n : Names) : Nat := n.byIndex.size

/-- Whether no shard has a name. -/
def isEmpty (n : Names) : Bool := n.byIndex.isEmpty

/-- The names given in a list, in its order. -/
def ofList (entries : List (Nat × String)) : Names :=
  entries.foldl (fun n (index, name) => n.withName index name) empty

@[simp] theorem name?_empty (index : Nat) : empty.name? index = none := by
  simp [name?, empty]

/-- Naming one shard leaves the others alone. -/
theorem name?_withName (n : Names) (index : Nat) (name : String) (other : Nat) :
    (n.withName index name).name? other = if index = other then some name else n.name? other := by
  simp only [name?, withName, Std.ExtTreeMap.getElem?_insert, Std.LawfulEqCmp.compare_eq_iff_eq]

end Names

/-! ### Properties -/

/-- The largest number that a shard can have. -/
def maxIndex : Nat := 18446744073709551615

/-- Whether a character is one of the ten ASCII digits. -/
def isDigit (c : Char) : Bool := '0' ≤ c && c ≤ '9'

/-- The number that decimal digits stand for, if there is at least one and it is no larger than a
shard's number can be.  Leading zeros change nothing. -/
def readIndex? (digits : List Char) : Option Nat :=
  if digits ≠ [] ∧ digits.all isDigit then
    let n := Nat.ofDigitChars 10 digits 0
    if n ≤ maxIndex then some n else none
  else none

/-- The shard that a key is about: the key is `marker` followed by the shard's number. -/
def shardIndex? (marker key : List Char) : Option Nat :=
  if marker.isPrefixOf key then readIndex? (key.drop marker.length) else none

namespace Names

/-- Takes one property into account. -/
def addPair (marker : String) (n : Names) (pair : String × String) : Names :=
  match shardIndex? marker.toList (trim pair.1.toList) with
  | none => n
  | some index =>
      match trim pair.2.toList with
      | [] => n
      | name => n.withName index (String.ofList name)

/-- **The names in a list of properties.** -/
def ofPairs (marker : String) (pairs : List (String × String)) : Names :=
  pairs.foldl (addPair marker) empty

/-- Properties count in order. -/
theorem ofPairs_append (marker : String) (first second : List (String × String)) :
    ofPairs marker (first ++ second) = second.foldl (addPair marker) (ofPairs marker first) := by
  simp [ofPairs]

end Names

/-! ### Properties texts -/

/-- A line of a properties text. -/
inductive Line where
  /-- It says nothing. -/
  | skipped
  /-- It gives a key a value. -/
  | entry (key value : List Char)
  /-- It is a key that does not end. -/
  | endless
deriving DecidableEq, Repr

/-- Whether a key ends before the character. -/
def endsKey (c : Char) : Bool := c == '=' || c == ':' || isBlank c

/-- The value behind a key: blanks, one `=` or `:`, and more blanks are dropped. -/
def readValue (rest : List Char) : List Char :=
  match trimStart rest with
  | [] => []
  | c :: cs => if c = '=' ∨ c = ':' then trimStart cs else c :: cs

/-- Reads a trimmed line. -/
def readLine : List Char → Line
  | [] => .skipped
  | c :: cs =>
      if c = '#' ∨ c = '!' then .skipped
      else
        match (c :: cs).dropWhile (!endsKey ·) with
        | [] => .endless
        | rest => .entry ((c :: cs).takeWhile (!endsKey ·)) (readValue rest)

/-- Reads lines, the first of which has the given number; the first endless one is the fault. -/
def readLines (number : Nat) : List (List Char) → Except ConfigFault (List (String × String))
  | [] => .ok []
  | line :: lines =>
      match readLine (trim line) with
      | .skipped => readLines (number + 1) lines
      | .endless => .error (.badLine number (String.ofList (trim line)))
      | .entry key value =>
          (readLines (number + 1) lines).map ((String.ofList key, String.ofList value) :: ·)

/-- The lines of a text.  A carriage return before the line feed is a blank at the end of its line,
which reading drops. -/
def linesOf (text : String) : List (List Char) := text.toList.splitOn '\n'

/-- **The names in a properties text.** -/
def Names.parse (marker text : String) : Except Failure Names :=
  match readLines 1 (linesOf text) with
  | .ok pairs => .ok (Names.ofPairs marker pairs)
  | .error fault => .error (.config fault)

/-- A text is read line by line. -/
theorem readLines_append (number : Nat) (first second : List (List Char)) :
    readLines number (first ++ second) =
      match readLines number first with
      | .error fault => .error fault
      | .ok pairs => (readLines (number + first.length) second).map (pairs ++ ·) := by
  induction first generalizing number with
  | nil =>
      simp only [readLines, List.nil_append, List.length_nil, Nat.add_zero]
      cases readLines number second <;> rfl
  | cons line first ih =>
      have hn : number + 1 + first.length = number + (first.length + 1) := by omega
      simp only [List.cons_append, readLines, List.length_cons]
      cases readLine (trim line) with
      | skipped => simp only [ih, hn]
      | endless => rfl
      | entry key value =>
          simp only [ih, hn]
          cases readLines (number + 1) first with
          | error fault => rfl
          | ok pairs => cases readLines (number + (first.length + 1)) second <;> rfl

/-- Joining two texts by a line feed joins their lines. -/
theorem linesOf_append (first second : String) :
    linesOf (first ++ "\n" ++ second) = linesOf first ++ linesOf second := by
  have hl : "\n".toList = ['\n'] := by decide
  simp [linesOf, hl, List.splitOn_append_cons_self]

end Tenancy.Routing
