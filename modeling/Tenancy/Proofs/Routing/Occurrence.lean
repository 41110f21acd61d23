/-
**The name that a key carries.**

Reading a key is a search for the last place where the separator occurs, and places may overlap.
What is read is told here by the places alone: it is what stands behind the last one, and nothing is
read if there is none.  From this it follows when tagging and reading are inverse: the separator
may occur in separator and name at the beginning only.  Otherwise an ending of the name is read, the
same one for all identifiers.

Main definitions:

* `Tenancy.Routing.OccursAt` — **the separator occurs in a text behind a number of letters**.

Main results:

* `Tenancy.Routing.lastAfter?_eq_some_iff` — what is found stands behind the last place;
* `Tenancy.Routing.shardName?_eq_some_iff`, `Tenancy.Routing.shardName?_eq_none_iff` — **what a key
  carries**;
* `Tenancy.Routing.taggable_iff` — a name is taggable if the separator occurs at the beginning only;
* `Tenancy.Routing.key_codec` — tagging and reading together.
-/

import Tenancy.Proofs.Routing.Tagged

set_option relaxedAutoImplicit false
set_option autoImplicit false

namespace Tenancy.Routing

/-! ### The last place in a list of letters -/

/-- Behind no occurrence further on stands what was found. -/
theorem length_le_of_lastAfter? {separator text found : List Char}
    (h : lastAfter? separator text = some found) :
    ∃ before, text = before ++ separator ++ found ∧
      ∀ before' after', text = before' ++ separator ++ after' → before'.length ≤ before.length := by
  induction text with
  | nil =>
      obtain ⟨before, htext⟩ := lastAfter?_eq_some h
      refine ⟨before, htext, ?_⟩
      intro before' after' htext'
      have hlength := congrArg List.length htext'
      simp only [List.length_nil, List.length_append] at hlength
      omega
  | cons c cs ih =>
      simp only [lastAfter?] at h
      split at h
      · rename_i found' hfound
        cases h
        obtain ⟨before, htext, hlast⟩ := ih hfound
        refine ⟨c :: before, by rw [htext]; rfl, ?_⟩
        intro before' after' htext'
        cases before' with
        | nil => exact Nat.zero_le _
        | cons c' before' =>
            have hcs : cs = before' ++ separator ++ after' := (List.cons.inj htext').2
            exact Nat.succ_le_succ (hlast before' after' hcs)
      · rename_i hnone
        split at h
        · rename_i hbegins
          cases h
          obtain ⟨rest, hrest⟩ := List.isPrefixOf_iff_prefix.1 hbegins
          refine ⟨[], by simp [← hrest], ?_⟩
          intro before' after' htext'
          cases before' with
          | nil => exact Nat.le_refl _
          | cons c' before' =>
              -- such a place would have been found in the rest of the text
              have hcs : cs = before' ++ separator ++ after' := (List.cons.inj htext').2
              have hsome := lastAfter?_append separator before' after'
              rw [← hcs, hnone] at hsome
              cases hsome
        · cases h

/-- **What is found stands behind the last place.** -/
theorem lastAfter?_eq_some_iff {separator text found : List Char} :
    lastAfter? separator text = some found ↔
      ∃ before, text = before ++ separator ++ found ∧
        ∀ before' after', text = before' ++ separator ++ after' →
          before'.length ≤ before.length := by
  constructor
  · exact length_le_of_lastAfter?
  · rintro ⟨before, htext, hlast⟩
    have hsome := lastAfter?_append separator before found
    rw [← htext] at hsome
    obtain ⟨found', hfound⟩ := Option.isSome_iff_exists.1 hsome
    obtain ⟨before', htext', hlast'⟩ := length_le_of_lastAfter? hfound
    -- two last places are one place
    have hlength : before'.length = before.length :=
      Nat.le_antisymm (hlast before' found' htext') (hlast' before found htext)
    have hsame : before ++ separator ++ found = before' ++ separator ++ found' :=
      htext.symm.trans htext'
    obtain ⟨-, hfounds⟩ := List.append_inj hsame (by simp [hlength])
    rw [hfound, hfounds]

/-! ### Places in a text -/

/-- **The separator occurs in a text behind `offset` letters.** -/
def OccursAt (separator text : String) (offset : Nat) : Prop :=
  ∃ before after, text = before ++ separator ++ after ∧ before.length = offset

theorem occursAt_iff {separator text : String} {offset : Nat} :
    OccursAt separator text offset ↔
      ∃ before after, text.toList = before ++ separator.toList ++ after ∧
        before.length = offset := by
  constructor
  · rintro ⟨before, after, rfl, hoffset⟩
    refine ⟨before.toList, after.toList, by simp [String.toList_append], ?_⟩
    rw [String.length_toList, hoffset]
  · rintro ⟨before, after, htext, hoffset⟩
    refine ⟨String.ofList before, String.ofList after, ?_, ?_⟩
    · rw [← String.toList_inj, htext]
      simp [String.toList_append]
    · rw [← String.length_toList, String.toList_ofList, hoffset]

/-- **A key carries what stands behind the last separator.** -/
theorem shardName?_eq_some_iff {key separator name : String} (hne : separator ≠ "") :
    shardName? key separator = some name ↔
      ∃ before, key = before ++ separator ++ name ∧
        ∀ offset, OccursAt separator key offset → offset ≤ before.length := by
  have hread : shardName? key separator = some name ↔
      lastAfter? separator.toList key.toList = some name.toList := by
    rw [shardName?, if_neg hne, Option.map_eq_some_iff]
    constructor
    · rintro ⟨found, hfound, rfl⟩
      rw [hfound, String.toList_ofList]
    · intro hfound
      exact ⟨name.toList, hfound, String.ofList_toList⟩
  rw [hread, lastAfter?_eq_some_iff]
  constructor
  · rintro ⟨before, htext, hlast⟩
    refine ⟨String.ofList before, ?_, ?_⟩
    · rw [← String.toList_inj, htext]
      simp [String.toList_append]
    · intro offset hoccurs
      obtain ⟨before', after', htext', rfl⟩ := occursAt_iff.1 hoccurs
      rw [← String.length_toList, String.toList_ofList]
      exact hlast before' after' htext'
  · rintro ⟨before, rfl, hlast⟩
    refine ⟨before.toList, by simp [String.toList_append], ?_⟩
    intro before' after' htext'
    rw [String.length_toList]
    exact hlast _ (occursAt_iff.2 ⟨before', after', htext', rfl⟩)

/-- **A key carries nothing if the separator does not occur in it.** -/
theorem shardName?_eq_none_iff {key separator : String} (hne : separator ≠ "") :
    shardName? key separator = none ↔ ∀ offset, ¬ OccursAt separator key offset := by
  rw [shardName?, if_neg hne, Option.map_eq_none_iff, lastAfter?_eq_none_iff]
  constructor
  · intro hnone offset hoccurs
    obtain ⟨before, after, htext, -⟩ := occursAt_iff.1 hoccurs
    exact hnone ⟨before, after, htext.symm⟩
  · rintro hnone ⟨before, after, htext⟩
    exact hnone before.length (occursAt_iff.2 ⟨before, after, htext.symm, rfl⟩)

/-! ### Tagging and reading -/

/-- A name is taggable if the separator occurs at the beginning only. -/
theorem taggable_iff {name separator : String} (hne : separator ≠ "") :
    Taggable name separator ↔
      ∀ offset, OccursAt separator (separator ++ name) offset ↔ offset = 0 := by
  have hchars : separator.toList ≠ [] := fun h => hne (String.toList_eq_nil_iff.1 h)
  obtain ⟨c, cs, hcons⟩ := List.exists_cons_of_ne_nil hchars
  constructor
  · intro htag offset
    constructor
    · intro hoccurs
      obtain ⟨before, after, htext, rfl⟩ := occursAt_iff.1 hoccurs
      cases before with
      | nil => rfl
      | cons c' before =>
          refine absurd ⟨before, after, ?_⟩ htag
          rw [← String.toList_append, htext]
          rfl
    · rintro rfl
      exact ⟨"", name, by simp, rfl⟩
  · rintro honly ⟨before, after, htail⟩
    have hoccurs : OccursAt separator (separator ++ name) (before.length + 1) := by
      refine occursAt_iff.2 ⟨c :: before, after, ?_, rfl⟩
      rw [List.cons_append, List.cons_append, htail, String.toList_append, hcons]
      rfl
    exact absurd ((honly _).1 hoccurs) (Nat.succ_ne_zero _)

/-- A tagged key carries an ending of the name, the same one for all identifiers. -/
theorem exists_ending_shardName?_tagKey {separator : String} (hne : separator ≠ "")
    (name : String) :
    ∃ before ending, name = before ++ ending ∧
      ∀ id, shardName? (tagKey id name separator) separator = some ending := by
  have hchars : separator.toList ≠ [] := fun h => hne (String.toList_eq_nil_iff.1 h)
  cases hfound : lastAfter? separator.toList (separator.toList ++ name.toList).tail with
  | none =>
      refine ⟨"", name, by simp, ?_⟩
      intro id
      rw [shardName?_tagKey hne, hfound, Option.getD_none, String.ofList_toList]
  | some found =>
      -- both stand at the end of separator and name, and what is found is shorter
      have hlength := length_lt_of_lastAfter?_tail hchars hfound
      obtain ⟨before, htail⟩ := lastAfter?_eq_some hfound
      have hfoundEnd : found <:+ (separator.toList ++ name.toList).tail :=
        ⟨before ++ separator.toList, htail.symm⟩
      have hends : found <:+ separator.toList ++ name.toList :=
        hfoundEnd.trans (List.tail_suffix _)
      obtain ⟨rest, hrest⟩ :=
        List.suffix_of_suffix_length_le hends (List.suffix_append _ _) (Nat.le_of_lt hlength)
      refine ⟨String.ofList rest, String.ofList found, ?_, ?_⟩
      · rw [← String.toList_inj, ← hrest]
        simp [String.toList_append]
      · intro id
        rw [shardName?_tagKey hne, hfound, Option.getD_some]

/-- **Tagging and reading together.**  Reading a tagged key gives an ending of the name that does
not depend on the identifier, and the name itself exactly if the separator occurs in separator and
name at the beginning only.  A key carries what stands behind the last separator, and nothing
exactly if the separator does not occur. -/
theorem key_codec {separator : String} (hne : separator ≠ "") :
    (∀ name : String,
      (∃ before ending, name = before ++ ending ∧
        ∀ id, shardName? (tagKey id name separator) separator = some ending) ∧
      ∀ id, shardName? (tagKey id name separator) separator = some name ↔
        ∀ offset, OccursAt separator (separator ++ name) offset ↔ offset = 0) ∧
    ∀ key : String,
      (∀ name, shardName? key separator = some name ↔
        ∃ before, key = before ++ separator ++ name ∧
          ∀ offset, OccursAt separator key offset → offset ≤ before.length) ∧
      (shardName? key separator = none ↔ ∀ offset, ¬ OccursAt separator key offset) := by
  refine ⟨?_, ?_⟩
  · intro name
    refine ⟨exists_ending_shardName?_tagKey hne name, ?_⟩
    intro id
    rw [← taggable_iff hne]
    constructor
    · intro hread
      refine Decidable.byContradiction ?_
      intro htag
      obtain ⟨other, hother, hcarried⟩ := exists_shardName?_tagKey htag hne id
      rw [hread] at hcarried
      exact hother (Option.some.inj hcarried).symm
    · intro htag
      exact htag.shardName?_tagKey hne id
  · intro key
    refine ⟨?_, shardName?_eq_none_iff hne⟩
    intro name
    exact shardName?_eq_some_iff hne

/-- The separator ends as it begins, and the name completes it once more. -/
theorem key_codec_straddled :
    shardName? (tagKey "id" "bac" "aba") "aba" = some "c" ∧
      (¬ ∀ offset, OccursAt "aba" ("aba" ++ "bac") offset ↔ offset = 0) ∧
      ∃ before, "idababac" = before ++ "aba" ++ "c" ∧
        ∀ offset, OccursAt "aba" "idababac" offset → offset ≤ before.length := by
  have hread : shardName? (tagKey "id" "bac" "aba") "aba" = some "c" := by decide +kernel
  obtain ⟨htagged, hkeys⟩ := @key_codec "aba" (by decide)
  obtain ⟨-, hinverse⟩ := htagged "bac"
  obtain ⟨hcarries, -⟩ := hkeys "idababac"
  refine ⟨hread, ?_, (hcarries "c").1 hread⟩
  intro honly
  have hname := (hinverse "id").2 honly
  rw [hread] at hname
  exact absurd (Option.some.inj hname) (by decide)

end Tenancy.Routing
