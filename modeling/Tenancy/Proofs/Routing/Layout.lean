/-
**Properties texts, written and read.**

The names of shards can be written as a properties text in many ways: the lines in any order, with
blank lines and comments between them, with any blanks around the mark behind a key, or with blanks
only where the name does not begin with a mark itself.  Reading gives the same names back, whichever
way was chosen.  The ways are rules for rows and texts, which do not refer to the reader.

Main definitions:

* `Tenancy.Routing.PlainMarker`, `Tenancy.Routing.PlainName` — markers and names that rows can hold;
* `Tenancy.Routing.Separator` — what can stand between a key and a name;
* `Tenancy.Routing.Row` — a line of a text without its end, and the entry that it holds;
* `Tenancy.Routing.Written` — **a text that holds entries**.

Main results:

* `Tenancy.Routing.Separator.readValue` — the name behind a separator is found;
* `Tenancy.Routing.Row.readLine` — a row says its entry, or nothing;
* `Tenancy.Routing.Written.readLines` — a text says its entries in their order;
* `Tenancy.Routing.Names.parse_written` — **what was written is read**.
-/

import Tenancy.Proofs.Routing.Lines

set_option relaxedAutoImplicit false
set_option autoImplicit false

namespace Tenancy.Routing

open Text

/-! ### Rows and texts -/

/-- Blanks within a line. -/
def IsGap (gap : List Char) : Prop := ∀ c ∈ gap, isBlank c = true ∧ c ≠ '\n'

instance (gap : List Char) : Decidable (IsGap gap) := List.decidableBAll _ gap

theorem IsGap.blank {gap : List Char} (h : IsGap gap) : ∀ c ∈ gap, isBlank c = true :=
  fun c hc => (h c hc).1

theorem IsGap.newline_not_mem {gap : List Char} (h : IsGap gap) : '\n' ∉ gap :=
  fun hmem => (h _ hmem).2 rfl

/-- **A marker that rows can begin with**: nothing in it ends a key, and it does not begin a
comment. -/
structure PlainMarker (marker : String) : Prop where
  solid : ∀ c ∈ marker.toList, c ≠ '=' ∧ c ≠ ':' ∧ isBlank c = false
  head : ∀ c ∈ marker.toList.head?, c ≠ '#' ∧ c ≠ '!'

instance (marker : String) : Decidable (PlainMarker marker) :=
  decidable_of_iff
    ((marker.toList.all fun c => c ≠ '=' ∧ c ≠ ':' ∧ isBlank c = false) = true ∧
      (marker.toList.head?.all fun c => c ≠ '#' ∧ c ≠ '!') = true) (by
      simp only [List.all_eq_true, Option.all_eq_true, decide_eq_true_eq]
      exact ⟨fun ⟨hsolid, hhead⟩ => ⟨hsolid, hhead⟩, fun h => ⟨h.solid, h.head⟩⟩)

/-- **A name that a row can hold**: it is not empty, it stays in its line, and it has no blank at
its ends. -/
structure PlainName (name : String) : Prop where
  nonempty : name ≠ ""
  newline : '\n' ∉ name.toList
  solid : SolidEnds name.toList

instance (name : String) : Decidable (PlainName name) :=
  decidable_of_iff (name ≠ "" ∧ '\n' ∉ name.toList ∧ SolidEnds name.toList)
    ⟨fun ⟨hne, hnewline, hsolid⟩ => ⟨hne, hnewline, hsolid⟩,
      fun h => ⟨h.nonempty, h.newline, h.solid⟩⟩

/-- **What can stand between a key and a name.** -/
inductive Separator (name : String) : List Char → Prop where
  /-- A mark, with or without blanks around it. -/
  | mark {before after : List Char} {sign : Char} (hbefore : IsGap before)
      (hsign : sign = '=' ∨ sign = ':') (hafter : IsGap after) :
      Separator name (before ++ sign :: after)
  /-- Blanks only, if the name does not look as if it began with a mark. -/
  | blank {gap : List Char} (hgap : IsGap gap) (hne : gap ≠ [])
      (hname : ∀ c ∈ name.toList.head?, c ≠ '=' ∧ c ≠ ':') : Separator name gap

/-- The key under which a shard is named. -/
def keyOf (marker : String) (index : Nat) : String := marker ++ toString index

/-- **A line of a text without its end**, and the entry that it holds. -/
inductive Row (marker : String) : List Char → Option (Nat × String) → Prop where
  /-- A key, a separator and a name. -/
  | entry {separator : List Char} (index : Nat) (name : String) (h : Separator name separator) :
      Row marker ((keyOf marker index).toList ++ (separator ++ name.toList)) (some (index, name))
  /-- Nothing but blanks, or nothing at all. -/
  | blank {gap : List Char} (h : IsGap gap) : Row marker gap none
  /-- A comment, with or without blanks before it. -/
  | comment {gap rest : List Char} {sign : Char} (hgap : IsGap gap)
      (hsign : sign = '#' ∨ sign = '!') (hrest : '\n' ∉ rest) : Row marker (gap ++ sign :: rest) none

/-- **A text that holds entries**, in its order.  The last line need not have an end. -/
inductive Written (marker : String) : List Char → List (Nat × String) → Prop where
  | last {row : List Char} {given : Option (Nat × String)} (hrow : Row marker row given) :
      Written marker row given.toList
  | line {row ending text : List Char} {given : Option (Nat × String)}
      {entries : List (Nat × String)} (hrow : Row marker row given)
      (hending : ending = ['\n'] ∨ ending = ['\r', '\n']) (htext : Written marker text entries) :
      Written marker (row ++ ending ++ text) (given.toList ++ entries)

/-! ### Keys -/

variable {marker : String}

theorem toList_keyOf (marker : String) (index : Nat) :
    (keyOf marker index).toList = marker.toList ++ Nat.toDigits 10 index := by
  rw [keyOf, String.toList_append, Nat.toString_eq_repr, Nat.toList_repr]

/-- The digits that a number is written in. -/
theorem digit_of_mem_toDigits {index : Nat} {c : Char} (h : c ∈ Nat.toDigits 10 index) :
    '0' ≤ c ∧ c ≤ '9' := by
  have hdigit := Nat.isDigit_of_mem_toDigits (by decide) (by decide) h
  rw [Char.isDigit, Bool.and_eq_true, decide_eq_true_eq, decide_eq_true_eq] at hdigit
  exact hdigit

/-- A digit neither ends a key nor begins a comment. -/
theorem endsKey_of_digit {c : Char} (h : '0' ≤ c ∧ c ≤ '9') :
    (c ≠ '=' ∧ c ≠ ':' ∧ isBlank c = false) ∧ c ≠ '#' ∧ c ≠ '!' := by
  have hlow : 48 ≤ c.toNat := h.1
  have hhigh : c.toNat ≤ 57 := h.2
  refine ⟨⟨?_, ?_, ?_⟩, ?_, ?_⟩
  · rintro rfl
    exact absurd hhigh (by decide)
  · rintro rfl
    exact absurd hhigh (by decide)
  · simp only [isBlank, Bool.or_eq_false_iff, Bool.and_eq_false_iff, decide_eq_false_iff_not,
      beq_eq_false_iff_ne]
    omega
  · rintro rfl
    exact absurd hlow (by decide)
  · rintro rfl
    exact absurd hlow (by decide)

/-- Nothing in a key ends it. -/
theorem PlainMarker.solid_keyOf (hmarker : PlainMarker marker) (index : Nat) :
    ∀ c ∈ (keyOf marker index).toList, c ≠ '=' ∧ c ≠ ':' ∧ isBlank c = false := by
  intro c hc
  rw [toList_keyOf] at hc
  rcases List.mem_append.1 hc with hc | hc
  · exact hmarker.solid c hc
  · exact (endsKey_of_digit (digit_of_mem_toDigits hc)).1

theorem keyOf_ne_nil (marker : String) (index : Nat) : (keyOf marker index).toList ≠ [] := by
  rw [toList_keyOf]
  intro h
  exact Nat.toDigits_ne_nil (List.append_eq_nil_iff.1 h).2

/-- A key has no blank at its ends. -/
theorem PlainMarker.solidEnds_keyOf (hmarker : PlainMarker marker) (index : Nat) :
    SolidEnds (keyOf marker index).toList :=
  .of_forall fun c hc => (hmarker.solid_keyOf index c hc).2.2

/-- A key does not begin a comment. -/
theorem PlainMarker.head_keyOf (hmarker : PlainMarker marker) (index : Nat) :
    ∀ c ∈ (keyOf marker index).toList.head?, c ≠ '#' ∧ c ≠ '!' := by
  intro c hc
  rw [toList_keyOf, List.head?_append] at hc
  cases hhead : marker.toList.head? with
  | none =>
      rw [hhead, Option.none_or] at hc
      exact (endsKey_of_digit (digit_of_mem_toDigits (List.mem_of_mem_head? hc))).2
  | some first =>
      rw [hhead] at hc
      cases hc
      exact hmarker.head c hhead

/-! ### Rows read -/

/-- A line that begins with a key and goes on with what ends it. -/
theorem readLine_of_key {key rest : List Char} (hne : key ≠ [])
    (hkey : ∀ c ∈ key, c ≠ '=' ∧ c ≠ ':' ∧ isBlank c = false)
    (hhead : ∀ c ∈ key.head?, c ≠ '#' ∧ c ≠ '!') (hrest : ∃ c ∈ rest.head?, endsKey c = true) :
    readLine (key ++ rest) = .entry key (readValue rest) := by
  have hin : ∀ c ∈ key, (!endsKey c) = true := by
    intro c hc
    rw [endsKey_eq_false_iff.2 (hkey c hc)]
    rfl
  obtain ⟨stop, hstop, hends⟩ := hrest
  obtain ⟨after, rfl⟩ : ∃ after, rest = stop :: after := List.head?_eq_some_iff.1 hstop
  have htake : (key ++ stop :: after).takeWhile (!endsKey ·) = key := by
    rw [List.takeWhile_append_of_pos hin, List.takeWhile_cons_of_neg (by simp [hends]),
      List.append_nil]
  have hdrop : (key ++ stop :: after).dropWhile (!endsKey ·) = stop :: after := by
    rw [List.dropWhile_append_of_pos hin, List.dropWhile_cons_of_neg (by simp [hends])]
  obtain ⟨c, cs, rfl⟩ := List.exists_cons_of_ne_nil hne
  have hcomment : ¬ (c = '#' ∨ c = '!') := by
    rw [not_or]
    exact hhead c rfl
  rw [List.cons_append] at htake hdrop ⊢
  rw [readLine, if_neg hcomment, hdrop, htake]

/-- What separates ends the key. -/
theorem Separator.head {name : String} {separator : List Char} (h : Separator name separator)
    (rest : List Char) : ∃ c ∈ (separator ++ rest).head?, endsKey c = true := by
  have hblank : ∀ {c : Char}, isBlank c = true → endsKey c = true := by
    intro c hc
    simp [endsKey, hc]
  cases h with
  | @mark before after sign hbefore hsign hafter =>
      cases before with
      | nil =>
          refine ⟨sign, rfl, ?_⟩
          rcases hsign with rfl | rfl
          · rfl
          · rfl
      | cons c before => exact ⟨c, rfl, hblank (hbefore.blank c List.mem_cons_self)⟩
  | blank hgap hne hname =>
      obtain ⟨c, gap, rfl⟩ := List.exists_cons_of_ne_nil hne
      exact ⟨c, rfl, hblank (hgap.blank c List.mem_cons_self)⟩

/-- **The name behind a separator is found.** -/
theorem Separator.readValue {name : String} {separator : List Char} (h : Separator name separator)
    (hname : PlainName name) : readValue (separator ++ name.toList) = name.toList := by
  cases h with
  | @mark before after sign hbefore hsign hafter =>
      have hsolid : isBlank sign = false := by
        rcases hsign with rfl | rfl
        · rfl
        · rfl
      have hstart : trimStart (before ++ sign :: (after ++ name.toList)) =
          sign :: (after ++ name.toList) := trimStart_append_cons hbefore.blank hsolid _
      rw [List.append_assoc, List.cons_append, Routing.readValue, hstart]
      dsimp only
      rw [if_pos hsign]
      exact trimStart_append hafter.blank hname.solid.head
  | blank hgap hne hhead =>
      have hstart : trimStart (separator ++ name.toList) = name.toList :=
        trimStart_append hgap.blank hname.solid.head
      rw [Routing.readValue, hstart]
      cases hchars : name.toList with
      | nil => rfl
      | cons c cs =>
          rw [hchars] at hhead
          obtain ⟨hequals, hcolon⟩ := hhead c rfl
          dsimp only
          rw [if_neg (not_or.2 ⟨hequals, hcolon⟩)]

/-- What a row says, by the entry that it holds. -/
def lineOf (marker : String) : Option (Nat × String) → Line
  | none => .skipped
  | some (index, name) => .entry (keyOf marker index).toList name.toList

/-- **A row says its entry, or nothing**, whatever blanks follow it. -/
theorem Row.readLine (hmarker : PlainMarker marker) {row : List Char}
    {given : Option (Nat × String)} (h : Row marker row given)
    (hgiven : ∀ entry ∈ given, PlainName entry.2) {tail : List Char}
    (htail : ∀ c ∈ tail, isBlank c = true) :
    readLine (trim (row ++ tail)) = lineOf marker given := by
  cases h with
  | @entry separator index name hseparator =>
      have hname := hgiven _ rfl
      have hne : name.toList ≠ [] := by
        intro hempty
        exact hname.nonempty (String.toList_eq_nil_iff.1 hempty)
      have hsolid : SolidEnds ((keyOf marker index).toList ++ (separator ++ name.toList)) :=
        (hmarker.solidEnds_keyOf index).append hname.solid (keyOf_ne_nil marker index) hne separator
      rw [(hsolid.trimmed_append htail).trim_eq, readLine_of_key (keyOf_ne_nil marker index)
        (hmarker.solid_keyOf index) (hmarker.head_keyOf index) (hseparator.head name.toList),
        hseparator.readValue hname]
      rfl
  | blank hgap =>
      have hnothing : trim (row ++ tail) = [] := by
        refine trim_eq_nil ?_
        intro c hc
        rcases List.mem_append.1 hc with hc | hc
        · exact hgap.blank c hc
        · exact htail c hc
      rw [hnothing]
      rfl
  | @comment gap rest sign hgap hsign hrest =>
      have hsolid : isBlank sign = false := by
        rcases hsign with rfl | rfl
        · rfl
        · rfl
      have hstart : trimStart (gap ++ sign :: (rest ++ tail)) = sign :: (rest ++ tail) :=
        trimStart_append_cons hgap.blank hsolid _
      obtain ⟨left, hcut⟩ := exists_trimEnd_cons hsolid (rest ++ tail)
      rw [List.append_assoc, List.cons_append, trim, hstart, hcut]
      exact readLine_of_comment hsign left

/-- A separator stays in its line. -/
theorem Separator.newline_not_mem {name : String} {separator : List Char}
    (h : Separator name separator) : '\n' ∉ separator := by
  intro hmem
  cases h with
  | @mark before after sign hbefore hsign hafter =>
      rcases List.mem_append.1 hmem with hmem | hmem
      · exact hbefore.newline_not_mem hmem
      · rcases List.mem_cons.1 hmem with rfl | hmem
        · exact absurd hsign (by decide)
        · exact hafter.newline_not_mem hmem
  | blank hgap hne hname => exact hgap.newline_not_mem hmem

/-- **A row stays in its line.** -/
theorem Row.newline_not_mem (hmarker : PlainMarker marker) {row : List Char}
    {given : Option (Nat × String)} (h : Row marker row given)
    (hgiven : ∀ entry ∈ given, PlainName entry.2) : '\n' ∉ row := by
  intro hmem
  cases h with
  | @entry separator index name hseparator =>
      rcases List.mem_append.1 hmem with hmem | hmem
      · have hsolid := (hmarker.solid_keyOf index _ hmem).2.2
        rw [isBlank_newline] at hsolid
        cases hsolid
      · rcases List.mem_append.1 hmem with hmem | hmem
        · exact hseparator.newline_not_mem hmem
        · exact (hgiven _ rfl).newline hmem
  | blank hgap => exact hgap.newline_not_mem hmem
  | @comment gap rest sign hgap hsign hrest =>
      rcases List.mem_append.1 hmem with hmem | hmem
      · exact hgap.newline_not_mem hmem
      · rcases List.mem_cons.1 hmem with rfl | hmem
        · exact absurd hsign (by decide)
        · exact hrest hmem

/-! ### Texts read -/

/-- The property that an entry is written as. -/
def pairOf (marker : String) (entry : Nat × String) : String × String :=
  (keyOf marker entry.1, entry.2)

/-- **One more row**: the lines that follow it are read with its entry before theirs. -/
theorem Row.readLines_cons (hmarker : PlainMarker marker) {row : List Char}
    {given : Option (Nat × String)} (h : Row marker row given)
    (hgiven : ∀ entry ∈ given, PlainName entry.2) {tail : List Char}
    (htail : ∀ c ∈ tail, isBlank c = true) (number : Nat) {lines : List (List Char)}
    {pairs : List (String × String)} (hlines : readLines (number + 1) lines = .ok pairs) :
    readLines number ((row ++ tail) :: lines) =
      .ok (given.toList.map (pairOf marker) ++ pairs) := by
  rw [readLines, h.readLine hmarker hgiven htail, hlines]
  cases given with
  | none => rfl
  | some entry =>
      obtain ⟨index, name⟩ := entry
      simp only [lineOf, String.ofList_toList]
      rfl

/-- **A text says its entries in their order.** -/
theorem Written.readLines (hmarker : PlainMarker marker) {text : List Char}
    {entries : List (Nat × String)} (h : Written marker text entries)
    (hentries : ∀ entry ∈ entries, PlainName entry.2) (number : Nat) :
    readLines number (text.splitOn '\n') = .ok (entries.map (pairOf marker)) := by
  induction h generalizing number with
  | @last row given hrow =>
      have hgiven : ∀ entry ∈ given, PlainName entry.2 := by
        intro entry hentry
        exact hentries entry (Option.mem_toList.2 hentry)
      have htail : ∀ c ∈ ([] : List Char), isBlank c = true := by simp
      have hnone : Routing.readLines (number + 1) [] = .ok [] := rfl
      have hread := hrow.readLines_cons hmarker hgiven htail number hnone
      rw [List.append_nil, List.append_nil] at hread
      rw [List.splitOn_eq_singleton (hrow.newline_not_mem hmarker hgiven)]
      exact hread
  | @line row ending text given entries hrow hending htext ih =>
      have hgiven : ∀ entry ∈ given, PlainName entry.2 := by
        intro entry hentry
        exact hentries entry (List.mem_append_left _ (Option.mem_toList.2 hentry))
      have hnot := hrow.newline_not_mem hmarker hgiven
      -- the end of a line is a line feed with at most a blank before it
      obtain ⟨tail, rfl, htail, hnewline⟩ : ∃ tail, ending = tail ++ ['\n'] ∧
          (∀ c ∈ tail, isBlank c = true) ∧ '\n' ∉ tail := by
        rcases hending with rfl | rfl
        · exact ⟨[], rfl, by simp, by simp⟩
        · exact ⟨['\r'], rfl, List.forall_mem_singleton.2 rfl, by decide⟩
      have hline : '\n' ∉ row ++ tail := by
        rw [List.mem_append, not_or]
        exact ⟨hnot, hnewline⟩
      have hsplit : (row ++ (tail ++ ['\n']) ++ text).splitOn '\n' =
          (row ++ tail) :: text.splitOn '\n' := by
        rw [← List.append_assoc, List.append_assoc _ ['\n'], List.singleton_append]
        exact List.splitOn_append_cons_self_of_not_mem hline text
      rw [hsplit, List.map_append]
      refine hrow.readLines_cons hmarker hgiven htail number (ih ?_ (number + 1))
      intro entry hentry
      exact hentries entry (List.mem_append_right _ hentry)

namespace Names

/-! ### Names written and read -/

/-- A property that names a shard does so. -/
theorem addPair_of_namesShard {pair : String × String} {index : Nat} {name : String}
    (h : NamesShard marker pair index name) (n : Names) :
    addPair marker n pair = n.withName index name := by
  rcases addPair_cases marker pair with ⟨index', name', hnames, hadd⟩ | ⟨hnone, -⟩
  · obtain ⟨rfl, rfl⟩ := h.unique hnames
    exact hadd n
  · exact absurd h (hnone index name)

/-- An entry is written as a property that names its shard. -/
theorem namesShard_pairOf (hmarker : PlainMarker marker) {index : Nat} (hindex : index < 2 ^ 64)
    {name : String} (hname : PlainName name) :
    NamesShard marker (pairOf marker (index, name)) index name := by
  refine ⟨⟨Nat.toDigits 10 index, ?_, Nat.toDigits_ne_nil, fun c => digit_of_mem_toDigits, ?_⟩,
    hindex, hname.solid.trimmed, hname.nonempty⟩
  · rw [← toList_keyOf]
    exact (hmarker.solidEnds_keyOf index).trimmed
  · rw [← ofDigitChars_eq_decimal, Nat.ofDigitChars_ten_toDigits]

/-- The properties that entries are written as give the names of the entries. -/
theorem ofPairs_map_pairOf (hmarker : PlainMarker marker) {entries : List (Nat × String)}
    (hentries : ∀ entry ∈ entries, entry.1 < 2 ^ 64 ∧ PlainName entry.2) :
    ofPairs marker (entries.map (pairOf marker)) = ofList entries := by
  rw [ofPairs, ofList, List.foldl_map]
  refine List.foldl_ext _ _ _ ?_
  rintro n ⟨index, name⟩ hentry
  obtain ⟨hindex, hname⟩ := hentries _ hentry
  exact addPair_of_namesShard (namesShard_pairOf hmarker hindex hname) n

/-- The names of entries for different shards. -/
theorem name?_ofList_iff {entries : List (Nat × String)} (hnodup : (entries.map Prod.fst).Nodup)
    (index : Nat) (name : String) :
    (ofList entries).name? index = some name ↔ (index, name) ∈ entries := by
  induction entries using List.reverseRecOn with
  | nil => simp [ofList]
  | append_singleton entries entry ih =>
      obtain ⟨index', name'⟩ := entry
      rw [List.map_append, List.map_singleton, List.nodup_append] at hnodup
      obtain ⟨hnodup, -, hnew⟩ := hnodup
      rw [ofList, List.foldl_append, List.foldl_cons, List.foldl_nil, ← ofList, name?_withName,
        List.mem_append, List.mem_singleton, Prod.mk.injEq]
      by_cases hindex : index' = index
      · subst hindex
        rw [if_pos rfl]
        constructor
        · intro h
          exact .inr ⟨rfl, (Option.some.inj h).symm⟩
        · rintro (h | ⟨-, rfl⟩)
          · exact absurd rfl (hnew index' (List.mem_map_of_mem h) index' (by simp))
          · rfl
      · rw [if_neg hindex, ih hnodup]
        constructor
        · exact .inl
        · rintro (h | ⟨rfl, -⟩)
          · exact h
          · exact absurd rfl hindex

/-- Names are those of their entries, in any order. -/
theorem ofList_of_perm {n : Names} {entries : List (Nat × String)} (h : entries.Perm n.toList) :
    ofList entries = n := by
  have hnodup : (entries.map Prod.fst).Nodup := (h.map Prod.fst).nodup_iff.2 n.nodup_map_fst_toList
  refine ext_name? fun index => ?_
  refine Option.ext fun name => ?_
  rw [name?_ofList_iff hnodup, h.mem_iff, mem_toList_iff]

/-- **What was written is read.**  A text that holds each of the names once, in any order and in any
of the ways to write them, is accepted, and the names that it is read as are these. -/
theorem parse_written (hmarker : PlainMarker marker) {n : Names}
    (hn : ∀ index name, n.name? index = some name → index < 2 ^ 64 ∧ PlainName name)
    {text : String} {entries : List (Nat × String)} (hentries : entries.Perm n.toList)
    (htext : Written marker text.toList entries) : parse marker text = .ok n := by
  have hplain : ∀ entry ∈ entries, entry.1 < 2 ^ 64 ∧ PlainName entry.2 := by
    rintro ⟨index, name⟩ hentry
    exact hn index name (mem_toList_iff.1 (hentries.mem_iff.1 hentry))
  refine parse_eq_ok.2 ⟨entries.map (pairOf marker), ?_, ?_⟩
  · exact htext.readLines hmarker (fun entry hentry => (hplain entry hentry).2) 1
  · rw [ofPairs_map_pairOf hmarker hplain, ofList_of_perm hentries]

/-- A comment, an entry with a mark before a name that begins with one, a blank line, and an entry
with a blank only, in a line without an end. -/
def mixedText : String := "! p.3=x\r\np.10 : =c\n\t\r\np.2\u3000a b"

theorem written_mixedText : Written "p." mixedText.toList [(10, "=c"), (2, "a b")] := by
  have hrows : mixedText.toList =
      ([] ++ '!' :: " p.3=x".toList) ++ ['\r', '\n'] ++
        (((keyOf "p." 10).toList ++ (([' '] ++ ':' :: [' ']) ++ "=c".toList)) ++ ['\n'] ++
          (['\t'] ++ ['\r', '\n'] ++
            ((keyOf "p." 2).toList ++ (['\u3000'] ++ "a b".toList)))) := by
    decide +kernel
  rw [hrows]
  refine .line (.comment (by decide) (.inr rfl) (by decide)) (.inr rfl) ?_
  refine .line (.entry 10 "=c" (.mark (by decide) (.inr rfl) (by decide))) (.inl rfl) ?_
  refine .line (.blank (by decide)) (.inr rfl) ?_
  exact .last (.entry 2 "a b" (.blank (by decide) (by decide) (by simp)))

theorem parse_mixedText : parse "p." mixedText = .ok (ofList [(2, "a b"), (10, "=c")]) := by
  refine parse_written (by decide) ?_ ?_ written_mixedText
  · have hplain : ∀ entry ∈ [(2, "a b"), (10, "=c")], entry.1 < 2 ^ 64 ∧ PlainName entry.2 := by
      decide +kernel
    intro index name h
    rw [name?_ofList_iff (by decide)] at h
    exact hplain (index, name) h
  · have hlist : (ofList [(2, "a b"), (10, "=c")]).toList = [(2, "a b"), (10, "=c")] := by
      decide +kernel
    rw [hlist]
    exact List.Perm.swap _ _ _

end Names

end Tenancy.Routing
