import MediaQuery.Proofs.Query.Feature

/-!
# Modifiers in names — in front, or behind a vendor's prefix

A name has a modifier in one of two places. Its word begins the name, in any case, with a hyphen and
more than hyphens behind it (`Modifier.Begins`); or the same stands behind a hyphen, a vendor and a
hyphen (`Modifier.FollowsVendor`). The two are told apart by the first character: a vendor's prefix
begins with a hyphen, and no modifier's word does (`Begins.not_followsVendor`). So it does not
matter which place is looked at first, and a name has one modifier at most (`IsIn.unique`).

`splitModifier` finds the modifier where there is one (`isIn_iff`). It takes off the word in front
and leaves any other name whole (`splitModifier_exact`).
-/

namespace MediaQuery

/-! ## The two places -/

namespace Modifier

variable {modifier other : Modifier} {name feature : List Char}

/-- The modifier begins the name: its word in any case, a hyphen, and a feature that is more than
hyphens. -/
def Begins (modifier : Modifier) (name feature : List Char) : Prop :=
  ∃ word, name = word ++ '-' :: feature ∧ isWord modifier.word.toList word = true ∧
    ∃ c ∈ feature, c ≠ '-'

/-- The modifier begins what follows a vendor's prefix: a hyphen, a word without one, a hyphen. -/
def FollowsVendor (modifier : Modifier) (name : List Char) : Prop :=
  ∃ vendor rest feature, name = '-' :: (vendor ++ '-' :: rest) ∧ vendor ≠ [] ∧ '-' ∉ vendor ∧
    modifier.Begins rest feature

/-- The modifier is written in the name, in one of the two places. -/
def IsIn (modifier : Modifier) (name : List Char) : Prop :=
  (∃ feature, modifier.Begins name feature) ∨ modifier.FollowsVendor name

theorem begins_iff :
    modifier.Begins name feature ↔ leadingModifier? name = some (modifier, feature) := by
  simp only [Begins, isWord, beq_iff_eq, leadingModifier?_eq_some_iff, ofWord?_eq_some_iff]

theorem forall_not_begins_iff :
    (∀ (modifier : Modifier) (feature : List Char), ¬ modifier.Begins name feature) ↔
      leadingModifier? name = none := by
  simp only [begins_iff, Option.eq_none_iff_forall_ne_some, Prod.forall, ne_eq]

theorem followsVendor_iff :
    modifier.FollowsVendor name ↔ vendorModifier? name = some modifier := by
  constructor
  · rintro ⟨vendor, rest, feature, rfl, hne, hvendor, hbegins⟩
    have hempty : vendor.isEmpty = false := List.isEmpty_eq_false_iff.mpr hne
    simp only [vendorModifier?, cutHyphen?_append hvendor, Option.bind_some, hempty,
      Bool.false_eq_true, if_false, begins_iff.mp hbegins, Option.map_some]
  · intro h
    unfold vendorModifier? at h
    split at h
    · simp only [Option.bind_eq_some_iff, Prod.exists] at h
      obtain ⟨vendor, rest, hcut, hrest⟩ := h
      obtain ⟨rfl, hvendor⟩ := cutHyphen?_eq_some_iff.mp hcut
      split_ifs at hrest with hempty
      obtain ⟨⟨_, feature⟩, hlead, rfl⟩ := Option.map_eq_some_iff.mp hrest
      exact ⟨vendor, rest, feature, rfl, mt List.isEmpty_iff.mpr hempty, hvendor,
        begins_iff.mpr hlead⟩
    · cases h

namespace Begins

theorem isSuffix (h : modifier.Begins name feature) : feature <:+ name := by
  obtain ⟨word, rfl, -⟩ := h
  exact (List.suffix_cons '-' feature).trans (List.suffix_append word _)

theorem ne (h : modifier.Begins name feature) : feature ≠ name := by
  obtain ⟨word, rfl, -⟩ := h
  intro heq
  have hlength := congrArg List.length heq
  rw [List.length_append, List.length_cons] at hlength
  omega

/-- A modifier's word does not begin with a hyphen, as a vendor's prefix does. -/
theorem not_followsVendor (h : modifier.Begins name feature) : ¬ other.FollowsVendor name := by
  rintro ⟨vendor, rest, -, heq, -⟩
  obtain ⟨word, hname, hword, -⟩ := h
  have hhyphen : '-' ∉ word := not_mem_of_ofWord? (ofWord?_eq_some_iff.mpr (eq_of_beq hword))
  -- the word is not empty, so the name begins with a character of it
  cases word with
  | nil => cases modifier <;> exact absurd hword (by decide)
  | cons c word =>
    rw [heq] at hname
    obtain rfl : '-' = c := (List.cons.inj hname).1
    exact hhyphen List.mem_cons_self

end Begins

end Modifier

/-! ## What a name splits into -/

section Split

variable {modifier other : Modifier} {name : String} {feature : List Char}

theorem splitModifier_of_begins (h : modifier.Begins name.toList feature) :
    splitModifier name = (some modifier, String.ofList feature) :=
  splitModifier_of_leading (Modifier.begins_iff.mp h)

theorem splitModifier_of_followsVendor (h : modifier.FollowsVendor name.toList) :
    splitModifier name = (some modifier, name) := by
  have hlead : leadingModifier? name.toList = none :=
    Modifier.forall_not_begins_iff.mp fun _ _ hbegins => hbegins.not_followsVendor h
  rw [splitModifier_of_not_leading hlead, Modifier.followsVendor_iff.mp h]

theorem splitModifier_of_not_isIn (h : ∀ modifier : Modifier, ¬ modifier.IsIn name.toList) :
    splitModifier name = (none, name) := by
  have hlead : leadingModifier? name.toList = none :=
    Modifier.forall_not_begins_iff.mp fun modifier feature hbegins =>
      h modifier (.inl ⟨feature, hbegins⟩)
  have hvendor : vendorModifier? name.toList = none :=
    Option.eq_none_iff_forall_ne_some.mpr fun modifier hfound =>
      h modifier (.inr (Modifier.followsVendor_iff.mpr hfound))
  rw [splitModifier_of_not_leading hlead, hvendor]

namespace Modifier

/-- A split finds the modifier that is in the name. -/
theorem isIn_iff : modifier.IsIn name.toList ↔ (splitModifier name).1 = some modifier := by
  constructor
  · rintro (⟨feature, hbegins⟩ | hvendor)
    · rw [splitModifier_of_begins hbegins]
    · rw [splitModifier_of_followsVendor hvendor]
  · intro h
    cases hlead : leadingModifier? name.toList with
    | some found =>
      rw [splitModifier_of_leading hlead] at h
      obtain rfl := Option.some.inj h
      exact .inl ⟨found.2, begins_iff.mpr hlead⟩
    | none =>
      rw [splitModifier_of_not_leading hlead] at h
      exact .inr (followsVendor_iff.mpr h)

theorem IsIn.unique (h : modifier.IsIn name.toList) (h' : other.IsIn name.toList) :
    modifier = other :=
  Option.some.inj ((isIn_iff.mp h).symm.trans (isIn_iff.mp h'))

end Modifier

/-- Something is taken off a name exactly if a modifier begins it; what is left is the feature. -/
theorem splitModifier_eq_iff_begins {rest : String} :
    splitModifier name = (some modifier, rest) ∧ rest.toList <:+ name.toList ∧ rest ≠ name ↔
      modifier.Begins name.toList rest.toList := by
  constructor
  · rintro ⟨hsplit, -, hne⟩
    have hin : modifier.IsIn name.toList := Modifier.isIn_iff.mpr (by rw [hsplit])
    rcases hin with ⟨feature, hbegins⟩ | hvendor
    · rw [splitModifier_of_begins hbegins] at hsplit
      obtain rfl := (Prod.mk.inj hsplit).2
      rwa [String.toList_ofList]
    · rw [splitModifier_of_followsVendor hvendor] at hsplit
      exact absurd (Prod.mk.inj hsplit).2.symm hne
  · intro hbegins
    refine ⟨?_, hbegins.isSuffix, fun heq => hbegins.ne (congrArg String.toList heq)⟩
    rw [splitModifier_of_begins hbegins, String.ofList_toList]

/-- A modifier is found and the name left whole exactly if the modifier follows a vendor. -/
theorem splitModifier_eq_self_iff :
    splitModifier name = (some modifier, name) ↔ modifier.FollowsVendor name.toList := by
  constructor
  · intro hsplit
    have hin : modifier.IsIn name.toList := Modifier.isIn_iff.mpr (by rw [hsplit])
    refine hin.resolve_left ?_
    rintro ⟨feature, hbegins⟩
    rw [splitModifier_of_begins hbegins] at hsplit
    apply hbegins.ne
    rw [← (Prod.mk.inj hsplit).2, String.toList_ofList]
  · exact splitModifier_of_followsVendor

theorem splitModifier_eq_none_iff :
    splitModifier name = (none, name) ↔ ∀ modifier : Modifier, ¬ modifier.IsIn name.toList := by
  constructor
  · intro hsplit modifier hin
    rw [Modifier.isIn_iff, hsplit] at hin
    cases hin
  · exact splitModifier_of_not_isIn

end Split

/-- **A name splits by the place of its modifier.** A modifier that begins the name is taken off it,
and what is left is the feature behind its word; one that follows a vendor is found, and the name is
left whole; without a modifier nothing is found, and the name is left whole. Each of the three
answers is given in its own case only. No name has modifiers in both places, or two of them. -/
theorem splitModifier_exact (name : String) :
    (∀ (modifier : Modifier) (rest : String),
      splitModifier name = (some modifier, rest) ∧ rest.toList <:+ name.toList ∧ rest ≠ name ↔
        modifier.Begins name.toList rest.toList) ∧
    (∀ modifier : Modifier,
      splitModifier name = (some modifier, name) ↔ modifier.FollowsVendor name.toList) ∧
    (splitModifier name = (none, name) ↔ ∀ modifier : Modifier, ¬ modifier.IsIn name.toList) ∧
    (∀ (modifier other : Modifier) (feature : List Char),
      modifier.Begins name.toList feature → ¬ other.FollowsVendor name.toList) ∧
    ∀ modifier other : Modifier,
      modifier.IsIn name.toList → other.IsIn name.toList → modifier = other := by
  refine ⟨fun modifier rest => ?_, fun modifier => ?_, ?_, ?_, ?_⟩
  · exact splitModifier_eq_iff_begins
  · exact splitModifier_eq_self_iff
  · exact splitModifier_eq_none_iff
  · exact fun modifier other feature hbegins => hbegins.not_followsVendor
  · exact fun modifier other => Modifier.IsIn.unique

/-- Of two modifiers' words in a row the first is the modifier in front of a name, and the second is
it behind a hyphen, where the first is the vendor. -/
theorem splitModifier_exact_places :
    (Modifier.min.Begins "MIN-max-x".toList "max-x".toList ∧
      ¬ Modifier.max.FollowsVendor "MIN-max-x".toList ∧
      ¬ Modifier.max.IsIn "MIN-max-x".toList) ∧
    (Modifier.max.FollowsVendor "-min-Max-x".toList ∧ ¬ Modifier.min.IsIn "-min-Max-x".toList) ∧
    ¬ Modifier.min.IsIn "-min-x".toList := by
  obtain ⟨hfront, -, -, hapart, hunique⟩ := splitModifier_exact "MIN-max-x"
  obtain ⟨-, hbehind, -, -, hunique'⟩ := splitModifier_exact "-min-Max-x"
  obtain ⟨-, -, hnone, -, -⟩ := splitModifier_exact "-min-x"
  have hbegins : Modifier.min.Begins "MIN-max-x".toList "max-x".toList :=
    (hfront .min "max-x").mp ⟨by decide, by decide, by decide⟩
  have hvendor : Modifier.max.FollowsVendor "-min-Max-x".toList := (hbehind .max).mp (by decide)
  refine ⟨⟨hbegins, hapart .min .max _ hbegins, fun hmax => ?_⟩, ⟨hvendor, fun hmin => ?_⟩,
    hnone.mp (by decide) .min⟩
  · cases hunique .min .max (.inl ⟨_, hbegins⟩) hmax
  · cases hunique' .min .max hmin (.inr hvendor)

end MediaQuery
