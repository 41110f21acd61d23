/-
**Tagged keys.**

The key of an entity may end in the name of the shard that the entity belongs to, behind a
separator. The name is what follows the last occurrence of the separator; occurrences may overlap,
so that in `a!!!b` it begins after the third mark.

Main definitions:

* `Tenancy.Routing.lastAfter?` — what follows the last occurrence of a separator in a text;
* `Tenancy.Routing.shardName?` — **the shard name that a key carries**;
* `Tenancy.Routing.tagKey` — an identifier tagged with a shard name.

Main results:

* `Tenancy.Routing.lastAfter?_eq_some` — what is found does follow an occurrence;
* `Tenancy.Routing.lastAfter?_append` — **a text that ends in the separator and a name carries
  something**.
-/

set_option relaxedAutoImplicit false
set_option autoImplicit false

namespace Tenancy.Routing

/-- What follows the last occurrence of a separator in a text. -/
def lastAfter? (separator : List Char) : List Char → Option (List Char)
  | [] => if separator = [] then some [] else none
  | c :: cs =>
      match lastAfter? separator cs with
      | some found => some found
      | none =>
          if separator.isPrefixOf (c :: cs) then some ((c :: cs).drop separator.length) else none

/-- **The shard name that a key carries**: nothing if the separator does not occur in it.  The empty
separator marks nothing. -/
def shardName? (key separator : String) : Option String :=
  if separator = "" then none
  else (lastAfter? separator.toList key.toList).map String.ofList

/-- An identifier tagged with a shard name. -/
def tagKey (id shard separator : String) : String := id ++ separator ++ shard

/-- The separator that keys use unless a router is told otherwise. -/
def defaultSeparator : String := "!!"

@[simp] theorem shardName?_empty (key : String) : shardName? key "" = none := rfl

/-- What is found does follow an occurrence of the separator. -/
theorem lastAfter?_eq_some {separator text found : List Char}
    (h : lastAfter? separator text = some found) :
    ∃ before, text = before ++ separator ++ found := by
  induction text with
  | nil =>
      simp only [lastAfter?] at h
      split at h
      · rename_i hs
        cases h
        exact ⟨[], by simp [hs]⟩
      · cases h
  | cons c cs ih =>
      simp only [lastAfter?] at h
      split at h
      · rename_i found' hf
        cases h
        obtain ⟨before, hb⟩ := ih hf
        exact ⟨c :: before, by simp [hb]⟩
      · split at h
        · rename_i hp
          cases h
          obtain ⟨rest, hr⟩ := List.isPrefixOf_iff_prefix.1 hp
          exact ⟨[], by simp [← hr]⟩
        · cases h

/-- A text that ends in the separator and a name carries something. -/
theorem lastAfter?_append (separator before name : List Char) :
    (lastAfter? separator (before ++ separator ++ name)).isSome = true := by
  induction before with
  | nil =>
      cases ht : separator ++ name with
      | nil => simp_all [lastAfter?]
      | cons c cs =>
          have hp : separator.isPrefixOf (c :: cs) = true := by
            rw [← ht]
            exact List.isPrefixOf_iff_prefix.2 ⟨name, rfl⟩
          simp only [List.nil_append, ht, lastAfter?]
          cases lastAfter? separator cs with
          | some _ => rfl
          | none => simp [hp]
  | cons c before ih =>
      obtain ⟨found, hf⟩ := Option.isSome_iff_exists.1 ih
      simp only [List.cons_append, lastAfter?, hf, Option.isSome_some]

end Tenancy.Routing
