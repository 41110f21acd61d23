/-
**Fields of an octet form.**

The building blocks of the stored forms: words of fixed width, least octet first; texts and
sequences behind their length as a word of eight octets; and their readers.  A reader takes its
field off the front of the octets and leaves the rest, so that a form is read field by field in the
order in which it is written.

Main definitions:

* `Tenancy.Octets.Malformed` — why octets are not the form that is expected;
* `Tenancy.Octets.Reader` — a reader of one field;
* `Tenancy.Octets.ofText`, `Tenancy.Octets.ofList` — the written form of a text and of a sequence;
* `Tenancy.Octets.Reader.word`, `Tenancy.Octets.Reader.text`, `Tenancy.Octets.Reader.list` — the
  readers of a word, a text and a sequence.

Main results:

* `Tenancy.Octets.Reader.word_ofWord`, `Tenancy.Octets.Reader.text_ofText`,
  `Tenancy.Octets.Reader.list_ofList` — **each reader takes back what was written**, and leaves
  what follows.
-/

import Tenancy.Octets.Utf8

set_option relaxedAutoImplicit false
set_option autoImplicit false

namespace Tenancy.Octets

/-- Why octets are not the form that is expected. -/
inductive Malformed where
  /-- The octets end inside a number. -/
  | numberCut
  /-- The octets end inside a text. -/
  | textCut
  /-- The octets of a text are no text. -/
  | badText (fault : Utf8.Fault)
  /-- A choice among `choices` alternatives has the number `index`. -/
  | badChoice (index choices : Nat)
deriving DecidableEq, Repr

/-- The wording of a malformed form. -/
def Malformed.message : Malformed → String
  | .numberCut => "io error: unexpected end of file"
  | .textCut => "io error: "
  | .badText fault => s!"string is not valid utf8: {fault.message}"
  | .badChoice index choices =>
      s!"invalid value: integer `{index}`, expected variant index 0 <= i < {choices}"

/-- **A reader of one field**: it takes the field off the front and leaves the rest. -/
abbrev Reader (α : Type) := StateT Octets (Except Malformed) α

/-! ### Writing -/

/-- A length, as a word of eight octets. -/
def ofLength (n : Nat) : Octets := ofWord 8 n

/-- A text behind the number of its octets. -/
def ofText (s : String) : Octets := ofLength (Utf8.encode s).length ++ Utf8.encode s

/-- A sequence behind the number of its members. -/
def ofList {α : Type} (write : α → Octets) (items : List α) : Octets :=
  ofLength items.length ++ items.flatMap write

/-! ### Reading -/

namespace Reader

/-- Takes a word of `width` octets. -/
def word (width : Nat) : Reader Nat := fun bs =>
  let field := bs.take width
  if field.length = width then .ok (toWord field, bs.drop width) else .error .numberCut

/-- Takes `n` octets. -/
def octets (n : Nat) : Reader Octets := fun bs =>
  let field := bs.take n
  if field.length = n then .ok (field, bs.drop n) else .error .textCut

/-- Takes a text behind its length. -/
def text : Reader String := do
  let length ← word 8
  let field ← octets length
  match Utf8.decode field with
  | .ok s => pure s
  | .error fault => throw (.badText fault)

/-- Takes `n` fields one after the other. -/
def times {α : Type} (item : Reader α) : Nat → Reader (List α)
  | 0 => pure []
  | n + 1 => do
      let first ← item
      let others ← times item n
      pure (first :: others)

/-- Takes a sequence behind its length. -/
def list {α : Type} (item : Reader α) : Reader (List α) := do
  let length ← word 8
  times item length

/-- Reads a whole form and forgets what follows it. -/
def read {α : Type} (r : Reader α) (bs : Octets) : Except Malformed α := (r bs).map Prod.fst

/-! ### What is written is taken back -/

theorem word_append {width : Nat} {field : Octets} (h : field.length = width) (rest : Octets) :
    word width (field ++ rest) = .ok (toWord field, rest) := by
  subst h
  simp [word]

/-- A number that fits is taken back. -/
theorem word_ofWord {width n : Nat} (h : n < wordCount width) (rest : Octets) :
    word width (ofWord width n ++ rest) = .ok (n, rest) := by
  rw [word_append (length_ofWord width n), toWord_ofWord h]

theorem octets_append (field rest : Octets) :
    octets field.length (field ++ rest) = .ok (field, rest) := by
  simp [octets]

/-- A text is taken back if the number of its octets fits in eight octets. -/
theorem text_ofText {s : String} (h : (Utf8.encode s).length < wordCount 8) (rest : Octets) :
    text (ofText s ++ rest) = .ok (s, rest) := by
  have hw := @word_ofWord 8 _ h (Utf8.encode s ++ rest)
  simp only [text, ofText, ofLength, List.append_assoc, bind, StateT.bind, hw, Except.bind,
    octets_append, Utf8.decode_encode]
  rfl

/-- Fields written one after the other are taken back. -/
theorem times_flatMap {α : Type} {write : α → Octets} {item : Reader α} {items : List α}
    (h : ∀ a ∈ items, ∀ rest, item (write a ++ rest) = .ok (a, rest)) (rest : Octets) :
    times item items.length (items.flatMap write ++ rest) = .ok (items, rest) := by
  induction items with
  | nil => rfl
  | cons a items ih =>
      have ha := h a (by simp) (items.flatMap write ++ rest)
      have hi := ih fun b hb => h b (by simp [hb])
      simp only [List.length_cons, List.flatMap_cons, List.append_assoc, times, bind, StateT.bind,
        ha, Except.bind, hi]
      rfl

/-- A sequence is taken back if the number of its members fits in eight octets. -/
theorem list_ofList {α : Type} {write : α → Octets} {item : Reader α} {items : List α}
    (hl : items.length < wordCount 8)
    (h : ∀ a ∈ items, ∀ rest, item (write a ++ rest) = .ok (a, rest)) (rest : Octets) :
    list item (ofList write items ++ rest) = .ok (items, rest) := by
  have hw := @word_ofWord 8 _ hl (items.flatMap write ++ rest)
  simp only [list, ofList, ofLength, List.append_assoc, bind, StateT.bind, hw, Except.bind,
    times_flatMap h]

end Reader

end Tenancy.Octets
