import MediaQuery.Proofs.Token.Munch
import MediaQuery.Query.Render

/-!
# Features — the two ways to write a modifier, and the names that have none

A leading modifier is a word and a hyphen before a feature that is more than hyphens
(`leadingModifier?_eq_some_iff`); it is taken off the name. Without one the name is the feature.
Either way the feature of a name goes with its modifier (`isFeature_splitModifier`), and back: a
feature that goes with its modifier, with the modifier put before it, is a name that splits into the
two (`IsFeature.isName_lead`, `IsFeature.splitModifier_lead`).
-/

namespace MediaQuery

variable {modifier : Modifier} {name feature word rest : List Char}

/-! ## Cutting at the first hyphen -/

theorem cutHyphen?_append (h : '-' ∉ word) (rest : List Char) :
    cutHyphen? (word ++ '-' :: rest) = some (word, rest) := by
  have hword : ∀ c ∈ word, (c != '-') = true := fun c hc =>
    bne_iff_ne.mpr fun heq => h (heq ▸ hc)
  simp only [cutHyphen?, List.dropWhile_append_of_pos hword, List.takeWhile_append_of_pos hword,
    List.dropWhile_cons, List.takeWhile_cons, bne_self_eq_false, Bool.false_eq_true, if_false,
    List.append_nil]

theorem cutHyphen?_eq_some_iff :
    cutHyphen? name = some (word, rest) ↔ name = word ++ '-' :: rest ∧ '-' ∉ word := by
  constructor
  · intro h
    unfold cutHyphen? at h
    split at h
    · cases h
    · next c tail hdrop =>
      obtain ⟨rfl, rfl⟩ := Prod.mk.inj (Option.some.inj h)
      obtain rfl : c = '-' := by
        have hhead := List.head?_dropWhile_not (· != '-') name
        rw [hdrop] at hhead
        exact bne_eq_false_iff_eq.mp hhead
      refine ⟨?_, ?_⟩
      · rw [← hdrop, List.takeWhile_append_dropWhile]
      · intro hmem
        exact absurd (List.mem_takeWhile_imp hmem) (by decide)
  · rintro ⟨rfl, hword⟩
    exact cutHyphen?_append hword rest

/-! ## The word of a modifier -/

/-- A text stands for a modifier where its small letters are the word of that. -/
theorem ofWord?_eq_some_iff :
    Modifier.ofWord? word = some modifier ↔ lower word = modifier.word.toList := by
  simp only [Modifier.ofWord?, isWord, beq_iff_eq]
  by_cases hmin : lower word = ['m', 'i', 'n']
  · rw [if_pos hmin, hmin]
    cases modifier <;> decide
  · rw [if_neg hmin]
    by_cases hmax : lower word = ['m', 'a', 'x']
    · rw [if_pos hmax, hmax]
      cases modifier <;> decide
    · rw [if_neg hmax]
      constructor
      · intro h
        cases h
      · intro h
        cases modifier with
        | min => exact absurd h hmin
        | max => exact absurd h hmax

theorem not_mem_of_ofWord? (h : Modifier.ofWord? word = some modifier) : '-' ∉ word := by
  intro hmem
  have hlower : '-' ∈ lower word := List.mem_map.mpr ⟨'-', hmem, by decide⟩
  rw [ofWord?_eq_some_iff.mp h] at hlower
  cases modifier with
  | min => exact absurd hlower (by decide)
  | max => exact absurd hlower (by decide)

theorem ofWord?_word (modifier : Modifier) :
    Modifier.ofWord? modifier.word.toList = some modifier := by
  cases modifier <;> decide

/-- **A leading modifier** is its word and a hyphen before a feature that is more than hyphens. -/
theorem leadingModifier?_eq_some_iff :
    leadingModifier? name = some (modifier, feature) ↔
      ∃ word, name = word ++ '-' :: feature ∧ Modifier.ofWord? word = some modifier ∧
        ∃ c ∈ feature, c ≠ '-' := by
  simp only [leadingModifier?, Option.bind_eq_some_iff, Prod.exists]
  constructor
  · rintro ⟨word, rest, hcut, h⟩
    obtain ⟨rfl, -⟩ := cutHyphen?_eq_some_iff.mp hcut
    split_ifs at h with hall
    obtain ⟨m, hm, heq⟩ := Option.map_eq_some_iff.mp h
    obtain ⟨rfl, rfl⟩ := Prod.mk.inj heq
    refine ⟨word, rfl, hm, ?_⟩
    simpa only [List.all_eq_true, beq_iff_eq, not_forall, exists_prop] using hall
  · rintro ⟨word, rfl, hword, c, hc, hne⟩
    refine ⟨word, feature, cutHyphen?_append (not_mem_of_ofWord? hword) feature, ?_⟩
    rw [if_neg, hword]
    · rfl
    · intro hall
      exact hne (eq_of_beq (List.all_eq_true.mp hall c hc))

/-! ## The feature of a name -/

/-- A name that a modifier begins splits at the hyphen behind the word. -/
theorem splitModifier_of_leading {name : String}
    (h : leadingModifier? name.toList = some (modifier, feature)) :
    splitModifier name = (some modifier, String.ofList feature) := by
  simp only [splitModifier, h]

/-- Any other name is left whole. -/
theorem splitModifier_of_not_leading {name : String} (h : leadingModifier? name.toList = none) :
    splitModifier name = (vendorModifier? name.toList, name) := by
  simp only [splitModifier, h]

theorem IsIdentifier.exists_ne_hyphen (h : IsIdentifier word) : ∃ c ∈ word, c ≠ '-' := by
  induction h with
  | start hc =>
    exact ⟨_, List.mem_cons_self, beq_eq_false_iff_ne.mp (ne_hyphen_of_isNameStart hc)⟩
  | hyphen _ ih =>
    obtain ⟨c, hc, hne⟩ := ih
    exact ⟨c, List.mem_cons_of_mem _ hc, hne⟩

/-- The feature of a name goes with its modifier. -/
theorem isFeature_splitModifier {name : String} (h : IsName name.toList) :
    IsFeature (splitModifier name).2 (splitModifier name).1 := by
  cases hlead : leadingModifier? name.toList with
  | some found =>
    obtain ⟨word, hname, -, hne⟩ := leadingModifier?_eq_some_iff.mp hlead
    rw [splitModifier_of_leading hlead, IsFeature, String.toList_ofList]
    refine ⟨fun c hc => h.identifier.isNameChar c ?_, hne⟩
    rw [hname]
    exact List.mem_append_right word (List.mem_cons_of_mem '-' hc)
  | none =>
    have hsplit := splitModifier_of_not_leading hlead
    rw [hsplit]
    cases hvendor : vendorModifier? name.toList with
    | none => exact ⟨h, by rw [hsplit, hvendor]⟩
    | some found => exact ⟨h.identifier.isNameChar, h.identifier.exists_ne_hyphen⟩

namespace IsFeature

variable {modifier : Option Modifier} {feature : String}

theorem isNameChar (h : IsFeature feature modifier) :
    ∀ c ∈ feature.toList, isNameChar c = true := by
  cases modifier with
  | none => exact h.1.identifier.isNameChar
  | some => exact h.1

theorem exists_ne_hyphen (h : IsFeature feature modifier) : ∃ c ∈ feature.toList, c ≠ '-' := by
  cases modifier with
  | none => exact h.1.identifier.exists_ne_hyphen
  | some => exact h.2

/-- The modifier put before a feature that goes with it makes a name. -/
theorem isName_lead (h : IsFeature feature modifier) :
    IsName (Modifier.lead modifier ++ feature.toList) := by
  cases modifier with
  | none => exact h.1
  | some modifier =>
    have hchars : ∀ c ∈ modifier.word.toList.tail ++ '-' :: feature.toList,
        MediaQuery.isNameChar c = true :=
      List.forall_mem_append.mpr
        ⟨List.all_eq_true.mp (by cases modifier <;> decide),
          List.forall_mem_cons.mpr ⟨by decide, h.1⟩⟩
    have hname : Modifier.lead (some modifier) ++ feature.toList =
        'm' :: (modifier.word.toList.tail ++ '-' :: feature.toList) := by
      cases modifier <;> rfl
    refine ⟨?_, ?_, ?_⟩
    · rw [hname]
      exact .start (by decide) hchars
    · rw [hname]
      intro c hc
      cases hc
      decide
    · intro hmem
      have hhyphen : '-' ∈ lower (Modifier.lead (some modifier) ++ feature.toList) :=
        List.mem_map.mpr ⟨'-', List.mem_append_left _ (List.mem_append_right _
          List.mem_cons_self), by decide⟩
      have hnone : ∀ word ∈ keywords, '-' ∉ word := by decide
      exact hnone _ hmem hhyphen

/-- A name with the modifier put before its feature splits into the two. -/
theorem splitModifier_lead (h : IsFeature feature modifier) :
    splitModifier (String.ofList (Modifier.lead modifier ++ feature.toList)) =
      (modifier, feature) := by
  cases modifier with
  | none =>
    rw [Modifier.lead, List.nil_append, String.ofList_toList]
    have hnone := h.2
    unfold splitModifier at hnone ⊢
    split at hnone
    · cases hnone
    · next hlead => exact Prod.ext hnone rfl
  | some modifier =>
    have hlead : leadingModifier? (Modifier.lead (some modifier) ++ feature.toList) =
        some (modifier, feature.toList) :=
      leadingModifier?_eq_some_iff.mpr
        ⟨modifier.word.toList, List.append_assoc .., ofWord?_word modifier, h.2⟩
    simp only [splitModifier, String.toList_ofList, hlead, String.ofList_toList]

end IsFeature

end MediaQuery
