import Mathlib
import MediaQuery.Proofs.Query.Moved
import MediaQuery.Proofs.Token.Lowered
import MediaQuery.Query.Render

/-!
# Small letters — reading a text without its capitals

A text in small letters has the same tokens at the same places, each in small letters
(`tokenize_lower`), and the part between two places is the same part in small letters. A unit and a
modifier are told from their letters in any case. So the small tokens mirror the tokens
(`mirrors_lower`), and a text in small letters is read as the query list in small letters, or is
refused in the same place for the same problem (`parse_lower`).
-/

namespace MediaQuery

/-! ## Units and modifiers -/

theorem hasUnit_lowerText (s : String) : hasUnit (lowerText s) = hasUnit s := by
  rw [hasUnit, hasUnit, toList_lowerText, lower, List.getLast?_map, Option.any_map]
  simp only [ignoresCase_isUnitChar _]

theorem ignoresCase_ne_hyphen : IgnoresCase (· != '-') := .of_capitals (by decide)

theorem ofWord?_lower (cs : List Char) : Modifier.ofWord? (lower cs) = Modifier.ofWord? cs := by
  simp only [Modifier.ofWord?, isWord_lower]

theorem cutHyphen?_lower (cs : List Char) :
    cutHyphen? (lower cs) = (cutHyphen? cs).map (Prod.map lower lower) := by
  rw [cutHyphen?, cutHyphen?, lower, List.dropWhile_map, List.takeWhile_map,
    ignoresCase_ne_hyphen.comp]
  cases cs.dropWhile (· != '-') <;> rfl

theorem leadingModifier?_lower (name : List Char) :
    leadingModifier? (lower name) = (leadingModifier? name).map (Prod.map id lower) := by
  rw [leadingModifier?, leadingModifier?, cutHyphen?_lower]
  cases cutHyphen? name with
  | none => rfl
  | some cut =>
    obtain ⟨word, feature⟩ := cut
    have hhyphens : (lower feature).all (· == '-') = feature.all (· == '-') := by
      rw [lower, List.all_map, ignoresCase_hyphen.comp]
    simp only [Option.map_some, Option.bind_some, Prod.map_apply, hhyphens, ofWord?_lower]
    split
    · rfl
    · rw [Option.map_map]
      rfl

theorem vendorModifier?_of_ne {c : Char} {name : List Char} (h : c ≠ '-') :
    vendorModifier? (c :: name) = none := by
  unfold vendorModifier?
  split
  · next heq => exact absurd (List.cons.inj heq).1 h
  · rfl

theorem vendorModifier?_lower (name : List Char) :
    vendorModifier? (lower name) = vendorModifier? name := by
  cases name with
  | nil => rfl
  | cons c name =>
    by_cases hc : c = '-'
    · subst hc
      have hhyphen : lower ('-' :: name) = '-' :: lower name := rfl
      rw [hhyphen, vendorModifier?, vendorModifier?, cutHyphen?_lower]
      cases cutHyphen? name with
      | none => rfl
      | some cut =>
        obtain ⟨vendor, rest⟩ := cut
        have hempty : (lower vendor).isEmpty = vendor.isEmpty := by
          rw [lower, List.isEmpty_map]
        simp only [Option.map_some, Option.bind_some, Prod.map_apply, hempty,
          leadingModifier?_lower, Option.map_map]
        rfl
    · have hc' : c.toLower ≠ '-' := by
        have hsame : (c.toLower != '-') = (c != '-') := ignoresCase_ne_hyphen c
        rw [← bne_iff_ne, hsame, bne_iff_ne]
        exact hc
      rw [lower_cons, vendorModifier?_of_ne hc, vendorModifier?_of_ne hc']

/-- A modifier is found in a name whatever its letters. -/
theorem splitModifier_lowerText (s : String) : splitModifier (lowerText s) =
    ((splitModifier s).1, lowerText (splitModifier s).2) := by
  rw [splitModifier, splitModifier, toList_lowerText, leadingModifier?_lower, vendorModifier?_lower]
  cases leadingModifier? s.toList with
  | none => rfl
  | some lead =>
    simp only [Option.map_some, lowerText, String.toList_ofList]
    rfl

/-! ## Small texts -/

section Texts

variable {s text : String} {i j : Nat}

theorem trimEnd_lower (cs : List Char) : trimEnd (lower cs) = lower (trimEnd cs) := by
  rw [trimEnd, trimEnd, lower, ← List.map_reverse, List.dropWhile_map, ignoresCase_isBlank.comp,
    ← List.map_reverse, lower]

/-- A part of a text is one of the small text, in small letters. -/
theorem IsPart.lower (h : IsPart s i j text) : IsPart (lowerText s) i j (lowerText text) := by
  obtain ⟨front, back, hs, hfront, hstop⟩ := isPart_iff.mp h
  refine isPart_iff.mpr ⟨MediaQuery.lower front, MediaQuery.lower back, ?_, ?_, ?_⟩
  · rw [toList_lowerText, toList_lowerText, hs, lower_append, lower_append]
  · rw [byteLength_lower, hfront]
  · rw [toList_lowerText, byteLength_lower, byteLength_lower, hstop]

theorem clauseEnd_lower (tokens : List Token) (t : Token) :
    clauseEnd (lowerText s) (tokens.map Token.lower) t.lower = clauseEnd s tokens t := by
  have hsame : (fun u : Token => t.lower.span.stop ≤ u.span.start && u.kind.endsClause) ∘
      Token.lower = fun u => t.span.stop ≤ u.span.start && u.kind.endsClause := rfl
  rw [clauseEnd, clauseEnd, List.find?_map, hsame, toList_lowerText, byteLength_lower]
  cases tokens.find? fun u => t.span.stop ≤ u.span.start && u.kind.endsClause <;> rfl

/-- A problem is placed where it was, with its fragment in small letters. -/
theorem locate_lower {tokens : List Token} {t : Token} {problem : Problem} {e : SyntaxError}
    (h : locate s tokens t problem = .syntaxError e) (problem' : Problem) :
    locate (lowerText s) (tokens.map Token.lower) t.lower problem' =
      .syntaxError ⟨e.position, lowerText e.fragment, problem'⟩ := by
  simp only [locate] at h
  split at h
  · next part hpart =>
    cases h
    have hlower : IsPart s t.span.start (max (clauseEnd s tokens t) t.span.start)
        (String.ofList part) := isPart_ofList_iff.mpr hpart
    have hslice := hlower.lower
    rw [IsPart, toList_lowerText, toList_lowerText, String.toList_ofList] at hslice
    simp only [locate, clauseEnd_lower]
    simp only [Token.lower, hslice, trimEnd_lower, lowerText, String.toList_ofList]
  · cases h

end Texts

/-! ## Small query lists -/

/-- All strings change to small letters. -/
def Respelling.lowers : Respelling where
  word := lowerText
  value := lowerText
  preHack := lowerText
  postHack := lowerText
  hasUnit_word := hasUnit_lowerText
  splitModifier_word := splitModifier_lowerText
  word_all := by decide
  preHack_empty := by decide
  postHack_empty := by decide

theorem map_respell_lowers (l : QueryList) : l.map (Query.respell .lowers) = l.map Query.lower :=
  rfl

/-- The small tokens mirror the tokens of any text. -/
theorem mirrors_lower (s : String) : Mirrors s (lowerText s) .lowers Token.lower where
  word_empty := by decide
  kind _ := rfl
  text _ := rfl
  part := IsPart.lower
  upTo := IsPart.lower
  behind := IsPart.lower

/-- **Reading does not look at the case of letters.** A text in small letters is read as the query
list of the text in small letters; or it is refused where the text is, with the fragment in small
letters and for the same problem, which quotes words in small letters. -/
theorem parse_lower (s : String) :
    (∀ l, parse s = .ok l → parse (lowerText s) = .ok (l.map Query.lower)) ∧
    ∀ failure, parse s = .error failure → ∃ e, failure = .syntaxError e ∧
      parse (lowerText s) = .error (.syntaxError
        ⟨e.position, lowerText e.fragment, e.problem.respell .lowers⟩) := by
  constructor
  · intro l h
    rw [← map_respell_lowers]
    exact (mirrors_lower s).parse_eq_ok (tokenize_lower s) h
  · intro failure h
    obtain ⟨e, he, shown, -, hlocate, herror⟩ :=
      (mirrors_lower s).parse_eq_error (tokenize_lower s) h
    refine ⟨e, he, ?_⟩
    rw [herror, tokenize_lower, locate_lower hlocate]

/-- A modifier behind a vendor's prefix and an exponent before a unit; and a name that asks for a
value. -/
theorem parse_lower_vendor :
    parse "only tv\\0 and (-webkit-min-ratio: 2e3em\\9)" =
      .ok [⟨false, "", "tv", "\\0", [⟨some .min, "-webkit-min-ratio", some "2e3em\\9"⟩]⟩] ∧
    parse "tv, (max-width) , x" =
      .error (.syntaxError ⟨5, "max-width)", .missingValue .max "max-width"⟩) := by
  have hvendor : parse "ONLY TV\\0 And (-WebKit-MIN-Ratio: 2E3Em\\9)" =
      .ok [⟨false, "", "TV", "\\0", [⟨some .min, "-WebKit-MIN-Ratio", some "2E3Em\\9"⟩]⟩] := by
    cbv
  have hbare : parse "TV, (MAX-Width) , X" =
      .error (.syntaxError ⟨5, "MAX-Width)", .missingValue .max "MAX-Width"⟩) := by
    cbv
  have hlower : lowerText "ONLY TV\\0 And (-WebKit-MIN-Ratio: 2E3Em\\9)" =
      "only tv\\0 and (-webkit-min-ratio: 2e3em\\9)" := by
    cbv
  have hlower' : lowerText "TV, (MAX-Width) , X" = "tv, (max-width) , x" := by
    cbv
  have hquery : [⟨false, "", "TV", "\\0", [⟨some .min, "-WebKit-MIN-Ratio", some "2E3Em\\9"⟩]⟩].map
      Query.lower =
      [⟨false, "", "tv", "\\0", [⟨some .min, "-webkit-min-ratio", some "2e3em\\9"⟩]⟩] := by
    decide
  have hproblem : (Problem.missingValue .max "MAX-Width").respell .lowers =
      .missingValue .max "max-width" := by
    decide
  have hfragment : lowerText "MAX-Width)" = "max-width)" := by
    decide
  have hvendor' := (parse_lower _).1 _ hvendor
  obtain ⟨e, he, hbare'⟩ := (parse_lower _).2 _ hbare
  cases he
  rw [hlower, hquery] at hvendor'
  rw [hlower', hfragment, hproblem] at hbare'
  exact ⟨hvendor', hbare'⟩

end MediaQuery
