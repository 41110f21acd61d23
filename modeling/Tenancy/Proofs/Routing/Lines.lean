/-
**Properties texts, line by line.**

A properties text is read line by line, and a line says what it says wherever it stands.  So a text
that is put behind another one is read as it is read alone, with its lines counted on: its names
take the place of the names before, and the first line that is a key without an end is the fault of
the whole.  Lines and faults are told here by the text: a line stands between two line feeds or ends
of the text, and its number is that of the line feeds before it and one more.

Main definitions:

* `Tenancy.Routing.LineAt` — **a line of a text**, by its number;
* `Tenancy.Routing.Endless` — a trimmed line that is a key without an end;
* `Tenancy.Routing.EndlessAt` — a line of a text that, trimmed, is one.

Main results:

* `Tenancy.Routing.lineAt_iff` — the lines are the pieces that a text is read by;
* `Tenancy.Routing.readLine_eq_endless_iff` — which lines are faults;
* `Tenancy.Routing.readLines_eq_error_iff` — the first of them is the fault;
* `Tenancy.Routing.Names.parse_eq_error_iff` — when a text is refused, and at which line;
* `Tenancy.Routing.Names.texts_compose` — **reading one text behind another**.
-/

import Tenancy.Proofs.Routing.Properties

set_option relaxedAutoImplicit false
set_option autoImplicit false

namespace Tenancy.Routing

open Text

/-! ### The lines of a text -/

/-- **A line of a text**, by its number.  It begins behind a line feed or at the beginning, it ends
before a line feed or at the end, and it has none in it.  A carriage return before the line feed is
the last character of the line, and a blank, which trimming cuts off. -/
def LineAt (text : List Char) (number : Nat) (line : List Char) : Prop :=
  ∃ before after, text = before ++ line ++ after ∧ '\n' ∉ line ∧
    (∀ c ∈ before.getLast?, c = '\n') ∧ (∀ c ∈ after.head?, c = '\n') ∧
    number = before.count '\n' + 1

/-- There is one line more than there are line feeds. -/
theorem length_splitOn (text : List Char) : (text.splitOn '\n').length = text.count '\n' + 1 := by
  induction text with
  | nil => rfl
  | cons c text ih =>
      rw [List.splitOn_cons_eq_if_modifyHead, List.count_cons]
      split
      · rw [List.length_cons, ih]
      · rw [List.length_modifyHead, ih]

/-- The first line of a text ends at the first line feed. -/
theorem exists_splitOn_eq_cons {line after : List Char} (hline : '\n' ∉ line)
    (hafter : ∀ c ∈ after.head?, c = '\n') :
    ∃ rest, (line ++ after).splitOn '\n' = line :: rest := by
  cases after with
  | nil => exact ⟨[], by rw [List.append_nil, List.splitOn_eq_singleton hline]⟩
  | cons c after =>
      obtain rfl := hafter c rfl
      exact ⟨after.splitOn '\n', List.splitOn_append_cons_self_of_not_mem hline after⟩

/-- What follows a line feed is divided into lines by itself. -/
theorem exists_splitOn_eq_append {before : List Char} (hbefore : ∀ c ∈ before.getLast?, c = '\n')
    (text : List Char) :
    ∃ lines, (before ++ text).splitOn '\n' = lines ++ text.splitOn '\n' ∧
      lines.length = before.count '\n' := by
  rcases List.eq_nil_or_concat' before with rfl | ⟨rest, last, rfl⟩
  · exact ⟨[], rfl, rfl⟩
  · obtain rfl := hbefore last (by simp)
    refine ⟨rest.splitOn '\n', ?_, ?_⟩
    · rw [List.append_assoc, List.singleton_append, List.splitOn_append_cons_self]
    · rw [length_splitOn, List.count_append, List.count_singleton_self]

/-- What is found among the lines of a text is a line of it. -/
theorem lineAt_of_getElem? {text line : List Char} {i : Nat}
    (h : (text.splitOn '\n')[i]? = some line) : LineAt text (i + 1) line := by
  induction i generalizing text with
  | zero =>
      by_cases hmem : '\n' ∈ text
      · obtain ⟨first, rest, rfl, hfirst⟩ := List.eq_append_cons_of_mem hmem
        rw [List.splitOn_append_cons_self_of_not_mem hfirst] at h
        cases h
        exact ⟨[], '\n' :: rest, rfl, hfirst, by simp, by simp, rfl⟩
      · rw [List.splitOn_eq_singleton hmem] at h
        cases h
        exact ⟨[], [], by simp, hmem, by simp, by simp, rfl⟩
  | succ i ih =>
      by_cases hmem : '\n' ∈ text
      · obtain ⟨first, rest, rfl, hfirst⟩ := List.eq_append_cons_of_mem hmem
        rw [List.splitOn_append_cons_self_of_not_mem hfirst, List.getElem?_cons_succ] at h
        obtain ⟨before, after, rfl, hline, hbefore, hafter, hnumber⟩ := ih h
        refine ⟨first ++ '\n' :: before, after, by simp, hline, ?_, hafter, ?_⟩
        · -- the last character before the line is that of `before`, or the line feed
          intro c hc
          rw [List.getLast?_append, List.getLast?_cons, Option.some_or, Option.mem_some_iff] at hc
          cases hlast : before.getLast? with
          | none =>
              rw [hlast] at hc
              exact hc.symm
          | some last =>
              rw [hlast] at hc
              rw [← hc]
              exact hbefore last hlast
        · rw [List.count_append, List.count_eq_zero.2 hfirst, List.count_cons_self, hnumber]
          omega
      · rw [List.splitOn_eq_singleton hmem] at h
        cases h

/-- **The lines are the pieces that a text is read by.** -/
theorem lineAt_iff {text line : List Char} {number : Nat} :
    LineAt text number line ↔ ∃ i, number = i + 1 ∧ (text.splitOn '\n')[i]? = some line := by
  constructor
  · rintro ⟨before, after, rfl, hline, hbefore, hafter, rfl⟩
    obtain ⟨lines, hsplit, hlength⟩ := exists_splitOn_eq_append hbefore (line ++ after)
    obtain ⟨rest, hfirst⟩ := exists_splitOn_eq_cons hline hafter
    refine ⟨before.count '\n', rfl, ?_⟩
    rw [List.append_assoc, hsplit, hfirst, ← hlength]
    simp
  · rintro ⟨i, rfl, h⟩
    exact lineAt_of_getElem? h

/-! ### Keys without an end -/

/-- **A trimmed line that is a key without an end**: there is something in it, it is no comment, and
nothing in it ends a key. -/
def Endless (line : List Char) : Prop :=
  line ≠ [] ∧ (∀ c ∈ line.head?, c ≠ '#' ∧ c ≠ '!') ∧
    ∀ c ∈ line, c ≠ '=' ∧ c ≠ ':' ∧ isBlank c = false

theorem endsKey_eq_false_iff {c : Char} :
    endsKey c = false ↔ c ≠ '=' ∧ c ≠ ':' ∧ isBlank c = false := by
  simp [endsKey, and_assoc]

/-- A comment is skipped. -/
theorem readLine_of_comment {c : Char} (h : c = '#' ∨ c = '!') (rest : List Char) :
    readLine (c :: rest) = .skipped := by
  rw [readLine, if_pos h]

/-- **Which lines are faults.** -/
theorem readLine_eq_endless_iff {line : List Char} : readLine line = .endless ↔ Endless line := by
  cases line with
  | nil => simp [readLine, Endless]
  | cons c cs =>
      have hends : (c :: cs).dropWhile (!endsKey ·) = [] ↔
          ∀ d ∈ c :: cs, d ≠ '=' ∧ d ≠ ':' ∧ isBlank d = false := by
        simp only [List.dropWhile_eq_nil_iff, Bool.not_eq_true', endsKey_eq_false_iff]
      by_cases hcomment : c = '#' ∨ c = '!'
      · rw [readLine_of_comment hcomment]
        refine iff_of_false nofun ?_
        rintro ⟨-, hhead, -⟩
        obtain ⟨hhash, hbang⟩ := hhead c rfl
        exact hcomment.elim hhash hbang
      · rw [not_or] at hcomment
        rw [readLine, if_neg (not_or.2 hcomment)]
        cases hrest : (c :: cs).dropWhile (!endsKey ·) with
        | nil =>
            refine iff_of_true rfl ⟨List.cons_ne_nil c cs, ?_, hends.1 hrest⟩
            intro d hd
            cases hd
            exact hcomment
        | cons d ds =>
            refine iff_of_false nofun ?_
            rintro ⟨-, -, hall⟩
            rw [hends.2 hall] at hrest
            cases hrest

/-- **A line of a text that, trimmed, is a key without an end.** -/
def EndlessAt (text : List Char) (number : Nat) (key : List Char) : Prop :=
  ∃ line, LineAt text number line ∧ Trimmed line key ∧ Endless key

/-! ### Faults -/

/-- A line that is no fault leaves the faults to the lines behind it, which are counted from the
next number on. -/
theorem readLines_cons_eq_error_iff {number : Nat} {line : List Char} {lines : List (List Char)}
    {fault : ConfigFault} (hline : ¬ Endless (trim line)) :
    readLines number (line :: lines) = .error fault ↔
      readLines (number + 1) lines = .error fault := by
  rw [readLines]
  cases hread : readLine (trim line) with
  | skipped => rfl
  | endless => exact absurd (readLine_eq_endless_iff.1 hread) hline
  | entry key value =>
      dsimp only
      cases readLines (number + 1) lines with
      | ok pairs => simp [Except.map]
      | error fault' => rfl

/-- **The first line that is a key without an end is the fault.** -/
theorem readLines_eq_error_iff {number : Nat} {lines : List (List Char)} {fault : ConfigFault} :
    readLines number lines = .error fault ↔
      ∃ i line, lines[i]? = some line ∧ Endless (trim line) ∧
        fault = .badLine (number + i) (String.ofList (trim line)) ∧
        ∀ j < i, ∀ earlier, lines[j]? = some earlier → ¬ Endless (trim earlier) := by
  induction lines generalizing number with
  | nil => simp [readLines]
  | cons line lines ih =>
      by_cases hendless : Endless (trim line)
      · -- the fault is this line, as nothing stands before it
        rw [readLines, readLine_eq_endless_iff.2 hendless]
        constructor
        · intro h
          cases h
          exact ⟨0, line, rfl, hendless, rfl, fun j hj => absurd hj (Nat.not_lt_zero j)⟩
        · rintro ⟨i, found, hfound, -, rfl, hearlier⟩
          cases i with
          | zero =>
              cases hfound
              rfl
          | succ i => exact absurd hendless (hearlier 0 (Nat.succ_pos i) line rfl)
      · -- the fault is one of the other lines
        rw [readLines_cons_eq_error_iff hendless, ih]
        constructor
        · rintro ⟨i, found, hfound, hfault, rfl, hearlier⟩
          refine ⟨i + 1, found, hfound, hfault, by rw [Nat.add_right_comm, Nat.add_assoc], ?_⟩
          intro j hj earlier hat
          cases j with
          | zero =>
              cases hat
              exact hendless
          | succ j => exact hearlier j (Nat.lt_of_succ_lt_succ hj) earlier hat
        · rintro ⟨i, found, hfound, hfault, rfl, hearlier⟩
          cases i with
          | zero =>
              cases hfound
              exact absurd hfault hendless
          | succ i =>
              refine ⟨i, found, hfound, hfault, by rw [Nat.add_right_comm, Nat.add_assoc], ?_⟩
              intro j hj earlier hat
              exact hearlier (j + 1) (Nat.succ_lt_succ hj) earlier hat

theorem endlessAt_iff {text key : List Char} {number : Nat} :
    EndlessAt text number key ↔
      ∃ i line, number = i + 1 ∧ (text.splitOn '\n')[i]? = some line ∧ trim line = key ∧
        Endless key := by
  simp only [EndlessAt, lineAt_iff, trim_eq_iff]
  constructor
  · rintro ⟨line, ⟨i, hnumber, hline⟩, hkey, hendless⟩
    exact ⟨i, line, hnumber, hline, hkey, hendless⟩
  · rintro ⟨i, line, hnumber, hline, hkey, hendless⟩
    exact ⟨line, ⟨i, hnumber, hline⟩, hkey, hendless⟩

namespace Names

variable {marker text : String}

theorem parse_eq_error {failure : Failure} :
    parse marker text = .error failure ↔
      ∃ fault, readLines 1 (linesOf text) = .error fault ∧ failure = .config fault := by
  rw [parse]
  cases readLines 1 (linesOf text) with
  | ok pairs => simp
  | error fault => simp [eq_comm]

theorem parse_eq_ok {names : Names} :
    parse marker text = .ok names ↔
      ∃ pairs, readLines 1 (linesOf text) = .ok pairs ∧ ofPairs marker pairs = names := by
  rw [parse]
  cases readLines 1 (linesOf text) with
  | ok pairs => simp
  | error fault => simp

/-- **A text is refused if a line is a key without an end**, and at the first such line. -/
theorem parse_eq_error_iff {failure : Failure} :
    parse marker text = .error failure ↔
      ∃ number key, failure = .config (.badLine number (String.ofList key)) ∧
        EndlessAt text.toList number key ∧
        ∀ earlier other, EndlessAt text.toList earlier other → number ≤ earlier := by
  simp only [parse_eq_error, readLines_eq_error_iff, endlessAt_iff, linesOf]
  constructor
  · rintro ⟨fault, ⟨i, line, hline, hendless, rfl, hfirst⟩, rfl⟩
    refine ⟨1 + i, trim line, rfl, ⟨i, line, Nat.add_comm 1 i, hline, rfl, hendless⟩, ?_⟩
    rintro earlier other ⟨j, line', rfl, hline', rfl, hendless'⟩
    refine Nat.not_lt.1 fun hlt => ?_
    exact hfirst j (by omega) line' hline' hendless'
  · rintro ⟨number, key, rfl, ⟨i, line, rfl, hline, rfl, hendless⟩, hfirst⟩
    refine ⟨_, ⟨i, line, hline, hendless, by rw [Nat.add_comm], ?_⟩, rfl⟩
    intro j hj line' hline' hendless'
    have hle := hfirst (j + 1) (trim line') ⟨j, line', rfl, hline', rfl, hendless'⟩
    omega

/-- A text is refused if one of its lines is a key without an end. -/
theorem exists_parse_eq_error_iff :
    (∃ failure, parse marker text = .error failure) ↔
      ∃ number key, EndlessAt text.toList number key := by
  classical
  constructor
  · rintro ⟨failure, h⟩
    obtain ⟨number, key, -, hat, -⟩ := parse_eq_error_iff.1 h
    exact ⟨number, key, hat⟩
  · intro h
    obtain ⟨key, hat⟩ := Nat.find_spec h
    refine ⟨_, parse_eq_error_iff.2 ⟨Nat.find h, key, rfl, hat, ?_⟩⟩
    intro earlier other hother
    exact Nat.find_min' h ⟨other, hother⟩

/-! ### One text behind another -/

/-- More properties take the place of those before, for the shards that they name. -/
theorem name?_foldl_addPair (n : Names) (pairs : List (String × String)) (index : Nat) :
    (pairs.foldl (addPair marker) n).name? index =
      ((ofPairs marker pairs).name? index).or (n.name? index) := by
  induction pairs using List.reverseRecOn with
  | nil => rw [ofPairs, List.foldl_nil, List.foldl_nil, name?_empty, Option.none_or]
  | append_singleton pairs pair ih =>
      rw [ofPairs_append, List.foldl_append]
      simp only [List.foldl_cons, List.foldl_nil]
      -- the property names its shard whatever was named before, or it does nothing
      rcases addPair_cases marker pair with ⟨shard, name, -, hadd⟩ | ⟨-, hadd⟩
      · rw [hadd, hadd, name?_withName, name?_withName, ih]
        split
        · rfl
        · rfl
      · rw [hadd, hadd, ih]

/-- Lines that say something say it whatever number they are counted from. -/
theorem readLines_of_ok {number : Nat} {lines : List (List Char)} {pairs : List (String × String)}
    (h : readLines number lines = .ok pairs) (other : Nat) : readLines other lines = .ok pairs := by
  induction lines generalizing number other pairs with
  | nil => exact h
  | cons line lines ih =>
      rw [readLines] at h ⊢
      cases hline : readLine (trim line) with
      | skipped =>
          rw [hline] at h
          exact ih h (other + 1)
      | endless =>
          rw [hline] at h
          cases h
      | entry key value =>
          rw [hline] at h
          dsimp only at h ⊢
          cases hrest : readLines (number + 1) lines with
          | ok rest =>
              rw [hrest] at h
              rw [ih hrest (other + 1)]
              exact h
          | error fault =>
              rw [hrest] at h
              cases h

/-- The fault among lines moves with the number that they are counted from. -/
theorem readLines_of_error {number : Nat} {lines : List (List Char)} {fault : ConfigFault}
    (h : readLines number lines = .error fault) :
    ∃ i line, fault = .badLine (number + i) line ∧
      ∀ other, readLines other lines = .error (.badLine (other + i) line) := by
  obtain ⟨i, line, hline, hendless, rfl, hfirst⟩ := readLines_eq_error_iff.1 h
  refine ⟨i, String.ofList (trim line), rfl, ?_⟩
  intro other
  exact readLines_eq_error_iff.2 ⟨i, line, hline, hendless, rfl, hfirst⟩

/-- The lines of the second text are counted on from those of the first. -/
theorem readLines_linesOf_append {first second : String} {pairs : List (String × String)}
    (h : readLines 1 (linesOf first) = .ok pairs) :
    readLines 1 (linesOf (first ++ "\n" ++ second)) =
      (readLines (first.toList.count '\n' + 2) (linesOf second)).map (pairs ++ ·) := by
  have hlength : 1 + (linesOf first).length = first.toList.count '\n' + 2 := by
    rw [linesOf, length_splitOn]
    omega
  rw [linesOf_append, readLines_append, h, hlength]

/-- **Reading one text behind another.**  If the first is refused, so is the whole, for the same
reason.  If only the second is refused, so is the whole, for the same line, which now has the lines
of the first before it.  Otherwise the names of the second take the place of those of the first.
A text is refused exactly if one of its lines, trimmed, is a key without an end, and the first of
these lines is the reason. -/
theorem texts_compose (marker : String) :
    (∀ first second : String,
      (∀ failure, parse marker first = .error failure →
        parse marker (first ++ "\n" ++ second) = .error failure) ∧
      (∀ names failure, parse marker first = .ok names → parse marker second = .error failure →
        ∃ number line, failure = .config (.badLine number line) ∧
          parse marker (first ++ "\n" ++ second) =
            .error (.config (.badLine (number + first.toList.count '\n' + 1) line))) ∧
      (∀ names others, parse marker first = .ok names → parse marker second = .ok others →
        ∃ joined, parse marker (first ++ "\n" ++ second) = .ok joined ∧
          ∀ index, joined.name? index = (others.name? index).or (names.name? index))) ∧
    ∀ text : String,
      ((∃ failure, parse marker text = .error failure) ↔
        ∃ number key, EndlessAt text.toList number key) ∧
      ∀ failure, parse marker text = .error failure ↔
        ∃ number key, failure = .config (.badLine number (String.ofList key)) ∧
          EndlessAt text.toList number key ∧
          ∀ earlier other, EndlessAt text.toList earlier other → number ≤ earlier := by
  refine ⟨?_, fun text => ⟨exists_parse_eq_error_iff, fun failure => parse_eq_error_iff⟩⟩
  intro first second
  refine ⟨?_, ?_, ?_⟩
  · intro failure h
    obtain ⟨fault, hfirst, rfl⟩ := parse_eq_error.1 h
    refine parse_eq_error.2 ⟨fault, ?_, rfl⟩
    rw [linesOf_append, readLines_append, hfirst]
  · intro names failure h h'
    obtain ⟨pairs, hfirst, -⟩ := parse_eq_ok.1 h
    obtain ⟨fault, hsecond, rfl⟩ := parse_eq_error.1 h'
    obtain ⟨i, line, rfl, hfault⟩ := readLines_of_error hsecond
    refine ⟨1 + i, line, rfl, parse_eq_error.2 ⟨_, ?_, rfl⟩⟩
    have hnumber : first.toList.count '\n' + 2 + i = 1 + i + first.toList.count '\n' + 1 := by
      omega
    rw [readLines_linesOf_append hfirst, hfault, hnumber]
    rfl
  · intro names others h h'
    obtain ⟨pairs, hfirst, rfl⟩ := parse_eq_ok.1 h
    obtain ⟨pairs', hsecond, rfl⟩ := parse_eq_ok.1 h'
    refine ⟨ofPairs marker (pairs ++ pairs'), parse_eq_ok.2 ⟨pairs ++ pairs', ?_, rfl⟩, ?_⟩
    · rw [readLines_linesOf_append hfirst, readLines_of_ok hsecond]
      rfl
    · intro index
      rw [ofPairs_append, name?_foldl_addPair]

/-- The first text ends in a carriage return, and the second begins with an empty line. -/
theorem texts_compose_twoTexts :
    parse "p." "# names\np.1 = a\r" = .ok (.ofList [(1, "a")]) ∧
      parse "p." "\n key \n" = .error (.config (.badLine 2 "key")) ∧
      parse "p." ("# names\np.1 = a\r" ++ "\n" ++ "\n key \n") =
        .error (.config (.badLine 4 "key")) := by
  have hfirst : parse "p." "# names\np.1 = a\r" = .ok (.ofList [(1, "a")]) := by decide +kernel
  have hsecond : parse "p." "\n key \n" = .error (.config (.badLine 2 "key")) := by decide +kernel
  obtain ⟨hcompose, -⟩ := texts_compose "p."
  obtain ⟨-, hrefused, -⟩ := hcompose "# names\np.1 = a\r" "\n key \n"
  obtain ⟨number, line, hfault, hjoined⟩ := hrefused _ _ hfirst hsecond
  cases hfault
  exact ⟨hfirst, hsecond, hjoined⟩

end Names

end Tenancy.Routing
