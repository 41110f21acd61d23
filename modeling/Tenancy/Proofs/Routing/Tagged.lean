/-
**Where tagged keys go.**

An identifier tagged with the name of a shard reaches this shard, provided that reading the key
finds the name again.  It does so whatever the identifier is, exactly if the separator does not
occur once more behind its first letter, in the name or where separator and name overlap.
Otherwise the last occurrence decides: the key carries an ending of the name, and it goes where that
name goes.  Since no two shards share a name, this is never the shard that was meant.

Main definitions:

* `Tenancy.Routing.Taggable` — **a name that a tagged key carries**;
* `Tenancy.Routing.Router.Over` — a router that was built over shards;
* `Tenancy.Routing.Router.Sends`, `Tenancy.Routing.Router.Misses` — the shard that the entity with a
  key is stored in and deleted from, and a key that names no shard.

Main results:

* `Tenancy.Routing.shardName?_tagKey` — the name that a tagged key carries;
* `Tenancy.Routing.Router.Over.shardIndex?_inj` — no two names are of one shard;
* `Tenancy.Routing.Router.Over.sends_tagKey` — **a tagged key reaches its shard if the name is
  taggable, and never otherwise**.
-/

import Tenancy.Routing.Traffic

set_option relaxedAutoImplicit false
set_option autoImplicit false

universe u

namespace Tenancy.Routing

/-! ### Last occurrences -/

/-- Nothing is found where the separator does not occur. -/
theorem lastAfter?_eq_none_iff {separator text : List Char} :
    lastAfter? separator text = none ↔ ¬ separator <:+: text := by
  constructor
  · rintro hnone ⟨before, after, rfl⟩
    have hsome := lastAfter?_append separator before after
    rw [hnone] at hsome
    cases hsome
  · intro h
    rw [Option.eq_none_iff_forall_ne_some]
    intro found hf
    obtain ⟨before, htext⟩ := lastAfter?_eq_some hf
    exact h ⟨before, found, htext.symm⟩

/-- What stands before the last occurrence does not matter. -/
theorem lastAfter?_append_left {separator text found : List Char}
    (h : lastAfter? separator text = some found) (before : List Char) :
    lastAfter? separator (before ++ text) = some found := by
  induction before with
  | nil => exact h
  | cons c before ih => simp only [List.cons_append, lastAfter?, ih]

/-- Behind the separator and a name, the last occurrence is the separator itself, unless it occurs
again further on. -/
theorem lastAfter?_separator {separator : List Char} (hne : separator ≠ []) (name : List Char) :
    lastAfter? separator (separator ++ name) =
      some ((lastAfter? separator (separator ++ name).tail).getD name) := by
  obtain ⟨c, cs, rfl⟩ := List.exists_cons_of_ne_nil hne
  have hbegins : (c :: cs).isPrefixOf (c :: (cs ++ name)) = true :=
    List.isPrefixOf_iff_prefix.2 ⟨name, rfl⟩
  simp only [List.cons_append, lastAfter?, List.tail_cons]
  cases lastAfter? (c :: cs) (cs ++ name) with
  | some found => rfl
  | none => simp [hbegins]

/-- What is found further on is shorter than the name. -/
theorem length_lt_of_lastAfter?_tail {separator name found : List Char} (hne : separator ≠ [])
    (h : lastAfter? separator (separator ++ name).tail = some found) :
    found.length < name.length := by
  obtain ⟨before, htext⟩ := lastAfter?_eq_some h
  have hlength := congrArg List.length htext
  have hpos := List.length_pos_iff.2 hne
  simp only [List.length_tail, List.length_append] at hlength
  omega

/-! ### Names that keys can carry -/

/-- **A name that a tagged key carries**: the separator occurs at the beginning of separator and
name, and not again. -/
def Taggable (name separator : String) : Prop :=
  ¬ separator.toList <:+: (separator.toList ++ name.toList).tail

instance (name separator : String) : Decidable (Taggable name separator) :=
  inferInstanceAs (Decidable (¬ _))

/-- The name that a tagged key carries does not depend on the identifier. -/
theorem shardName?_tagKey {separator : String} (hne : separator ≠ "") (id name : String) :
    shardName? (tagKey id name separator) separator =
      some (String.ofList ((lastAfter? separator.toList
        (separator.toList ++ name.toList).tail).getD name.toList)) := by
  have hchars : separator.toList ≠ [] := fun h => hne (String.toList_eq_nil_iff.1 h)
  have htext : (tagKey id name separator).toList =
      id.toList ++ (separator.toList ++ name.toList) := by
    rw [tagKey, String.toList_append, String.toList_append, List.append_assoc]
  rw [shardName?, if_neg hne, htext,
    lastAfter?_append_left (lastAfter?_separator hchars name.toList), Option.map_some]

/-- A taggable name is carried. -/
theorem Taggable.shardName?_tagKey {separator name : String} (h : Taggable name separator)
    (hne : separator ≠ "") (id : String) :
    shardName? (tagKey id name separator) separator = some name := by
  rw [Routing.shardName?_tagKey hne, lastAfter?_eq_none_iff.2 h, Option.getD_none,
    String.ofList_toList]

/-- In place of any other name a shorter one is carried. -/
theorem exists_shardName?_tagKey {separator name : String} (h : ¬ Taggable name separator)
    (hne : separator ≠ "") (id : String) :
    ∃ other, other ≠ name ∧ shardName? (tagKey id name separator) separator = some other := by
  have hchars : separator.toList ≠ [] := fun h => hne (String.toList_eq_nil_iff.1 h)
  cases hfound : lastAfter? separator.toList (separator.toList ++ name.toList).tail with
  | none => exact absurd (lastAfter?_eq_none_iff.1 hfound) h
  | some found =>
      refine ⟨String.ofList found, fun he => ?_, ?_⟩
      · have hshorter := length_lt_of_lastAfter?_tail hchars hfound
        rw [← he, String.toList_ofList] at hshorter
        exact Nat.lt_irrefl _ hshorter
      · rw [shardName?_tagKey hne, hfound, Option.getD_some]

/-! ### The shards of names -/

/-- The shard of a name is one to which the name was given. -/
theorem name?_of_nameTable {count : Nat} {names : Names} {name : String} {index : Fin count}
    (h : (nameTable count names)[name]? = some index) : names.name? index = some name := by
  let Tells (table : Std.ExtTreeMap String (Fin count)) : Prop :=
    ∀ (name : String) (index : Fin count), table[name]? = some index →
      names.name? index = some name
  -- every entry of the table is one of the names
  have htells : Tells (nameTable count names) := by
    refine List.foldlRecOn names.toList _ (motive := Tells) ?_ ?_
    · intro name index he
      rw [Std.ExtTreeMap.getElem?_empty] at he
      cases he
    · rintro table htable ⟨number, given⟩ hentry name index he
      dsimp only at he
      split at he
      · rw [Std.ExtTreeMap.getElem?_insert] at he
        split at he
        · rename_i heq
          cases he
          rw [← Std.LawfulEqCmp.compare_eq_iff_eq.1 heq]
          exact Std.ExtTreeMap.mem_toList_iff_getElem?_eq_some.1 hentry
        · exact htable name index he
      · exact htable name index he
  exact htells name index h

namespace Router

variable {η : Type u} {shards : List η} {options : Options} {r : Router η}

/-- **A router that was built over shards.** -/
inductive Over (shards : List η) (options : Options) (r : Router η) : Prop where
  /-- From names. -/
  | new (names : Names) (h : Router.new shards names options = .ok r)
  /-- From a properties text. -/
  | ofText (text : String) (h : Router.ofText shards text options = .ok r)

/-- It has these shards, and the table of some names. -/
theorem Over.exists_eq (h : r.Over shards options) :
    options.separator ≠ "" ∧ ∃ names hpos,
      r = ⟨options, shards, nameTable shards.length names, hpos⟩ := by
  obtain ⟨names, hnew⟩ : ∃ names, Router.new shards names options = .ok r := by
    cases h with
    | new names h => exact ⟨names, h⟩
    | ofText text h =>
        rw [Router.ofText] at h
        split at h
        · rename_i names _
          exact ⟨names, h⟩
        · cases h
  rw [Router.new] at hnew
  split at hnew
  · cases hnew
  · rename_i hseparator
    split at hnew
    · rename_i hpos
      exact ⟨hseparator, names, hpos, (Except.ok.inj hnew).symm⟩
    · cases hnew

/-- **No two names are of one shard.** -/
theorem Over.shardIndex?_inj (h : r.Over shards options) {name other : String} {index : Nat}
    (hname : r.shardIndex? name = some index) (hother : r.shardIndex? other = some index) :
    other = name := by
  obtain ⟨-, names, hpos, rfl⟩ := h.exists_eq
  obtain ⟨i, hi, rfl⟩ := Option.map_eq_some_iff.1 hname
  obtain ⟨j, hj, hij⟩ := Option.map_eq_some_iff.1 hother
  have hgiven := name?_of_nameTable hj
  rw [hij, name?_of_nameTable hi] at hgiven
  exact (Option.some.inj hgiven).symm

/-! ### Where keys go -/

/-- The entity with a key is stored in the shard with a number, and deleted from just this one. -/
def Sends (r : Router η) (key : String) (index : Nat) : Prop :=
  ∃ handle, r.shards[index]? = some handle ∧ ∀ t, (r.addition key t).1 = .ok handle ∧
    (r.deletion key t).1 = .ok [handle]

/-- The entity with a key is neither stored nor deleted, as no shard has the name. -/
def Misses (r : Router η) (key name : String) : Prop :=
  ∀ t, (r.addition key t).1 = .error (.shardNotFound name) ∧
    (r.deletion key t).1 = .error (.shardNotFound name)

theorem sends_of_shardName? {key name : String} {index : Nat}
    (hkey : Routing.shardName? key r.options.separator = some name)
    (hname : r.shardIndex? name = some index) : r.Sends key index := by
  obtain ⟨i, hi, rfl⟩ := Option.map_eq_some_iff.1 hname
  refine ⟨r.shard i, List.getElem?_eq_getElem i.isLt, fun t => ?_⟩
  simp only [addition, deletion, findKey_eq_findName hkey, findName, hi]
  exact ⟨rfl, rfl⟩

theorem misses_of_shardName? {key name : String}
    (hkey : Routing.shardName? key r.options.separator = some name)
    (hname : r.shardIndex? name = none) : r.Misses key name := by
  intro t
  simp only [addition, deletion, findKey_eq_findName hkey, findName,
    Option.map_eq_none_iff.1 hname]
  exact ⟨rfl, rfl⟩

/-- **A tagged key reaches its shard if the name is taggable, and never otherwise.**  With a name
that is not taggable the key carries another one, and either no shard has that name or the key goes
to another shard. -/
theorem Over.sends_tagKey (h : r.Over shards options) {name : String} {index : Nat}
    (hname : r.shardIndex? name = some index) (id : String) :
    r.shards = shards ∧
      (Taggable name options.separator → r.Sends (tagKey id name options.separator) index) ∧
      (¬ Taggable name options.separator →
        ∃ other, Routing.shardName? (tagKey id name options.separator) options.separator =
            some other ∧
          (r.shardIndex? other = none ∧ r.Misses (tagKey id name options.separator) other ∨
            ∃ elsewhere, r.shardIndex? other = some elsewhere ∧ elsewhere ≠ index ∧
              r.Sends (tagKey id name options.separator) elsewhere)) := by
  obtain ⟨hseparator, names, hpos, hr⟩ := h.exists_eq
  have hoptions : r.options = options := by rw [hr]
  refine ⟨by rw [hr], fun htag => ?_, fun htag => ?_⟩
  · refine sends_of_shardName? ?_ hname
    rw [hoptions]
    exact htag.shardName?_tagKey hseparator id
  · obtain ⟨other, hne, hcarried⟩ := exists_shardName?_tagKey htag hseparator id
    refine ⟨other, hcarried, ?_⟩
    rw [← hoptions] at hcarried ⊢
    cases hother : r.shardIndex? other with
    | none => exact .inl ⟨rfl, misses_of_shardName? hcarried hother⟩
    | some elsewhere =>
        refine .inr ⟨elsewhere, rfl, ?_, sends_of_shardName? hcarried hother⟩
        rintro rfl
        exact hne (h.shardIndex?_inj hname hother)

/-- One shard has the name `b`, and another one has a name that ends in the separator and `b`. -/
def nestedNames : Names := .ofList [(1, "a!!b"), (2, "b")]

/-- The router of these names. -/
def nestedRouter : Router String :=
  ⟨.standard, ["default", "first", "second"], nameTable 3 nestedNames, by decide⟩

theorem over_nestedRouter : nestedRouter.Over ["default", "first", "second"] .standard :=
  .new nestedNames rfl

theorem sends_nestedRouter :
    nestedRouter.Sends (tagKey "id" "b" "!!") 2 ∧
      ∃ other, Routing.shardName? (tagKey "id" "a!!b" "!!") "!!" = some other ∧
        (nestedRouter.shardIndex? other = none ∧
            nestedRouter.Misses (tagKey "id" "a!!b" "!!") other ∨
          ∃ elsewhere, nestedRouter.shardIndex? other = some elsewhere ∧ elsewhere ≠ 1 ∧
            nestedRouter.Sends (tagKey "id" "a!!b" "!!") elsewhere) := by
  have hsecond : nestedRouter.shardIndex? "b" = some 2 := by decide +kernel
  have hfirst : nestedRouter.shardIndex? "a!!b" = some 1 := by decide +kernel
  obtain ⟨-, hreaches, -⟩ := over_nestedRouter.sends_tagKey hsecond "id"
  obtain ⟨-, -, hmisses⟩ := over_nestedRouter.sends_tagKey hfirst "id"
  exact ⟨hreaches (by decide), hmisses (by decide)⟩

/-- **A tagged key need not reach its shard**: the entity of the first shard goes to the second. -/
theorem not_sends_nestedRouter :
    nestedRouter.Over ["default", "first", "second"] .standard ∧
      nestedRouter.shardIndex? "a!!b" = some 1 ∧
      (nestedRouter.addition (tagKey "id" "a!!b" "!!") .zero).1 = .ok "second" ∧
      (nestedRouter.deletion (tagKey "id" "a!!b" "!!") .zero).1 = .ok ["second"] ∧
      ¬ nestedRouter.Sends (tagKey "id" "a!!b" "!!") 1 := by
  have haddition : (nestedRouter.addition (tagKey "id" "a!!b" "!!") .zero).1 = .ok "second" := by
    rfl
  refine ⟨over_nestedRouter, by decide +kernel, haddition, by rfl, ?_⟩
  rintro ⟨handle, hhandle, hsent⟩
  obtain ⟨hadded, -⟩ := hsent .zero
  rw [haddition] at hadded
  cases hadded
  exact absurd hhandle (by decide)

end Router

end Tenancy.Routing
