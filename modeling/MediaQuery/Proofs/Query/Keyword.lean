import Mathlib
import MediaQuery.Proofs.Query.Behind

/-!
# Keywords — a text behind `not ` or `only `

A keyword has to be followed by a media type. Where a text begins with one, the walk comes from the
keyword to the phase that it comes to without it, and what it has begun differs by the inversion
alone (`walk_beforeType`). So the keyword inverts the first query or leaves it as it is, and what is
wrong with the text is wrong with it there. Whatever else a text begins with is refused behind a
keyword, also where the text alone is read: a hack and another keyword go before the type too, but
not behind a keyword.
-/

namespace MediaQuery

variable {input s : String} {t : Token} {inverse : Bool}

/-- The query, inverted if the keyword says so. -/
def Query.invert (inverse : Bool) (q : Query) : Query :=
  { q with inverse := q.inverse || inverse }

theorem Query.invert_true (q : Query) : q.invert true = { q with inverse := true } := by
  rw [invert, Bool.or_true]

theorem Query.invert_false (q : Query) : q.invert false = q := by
  rw [invert, Bool.or_false]

/-! ## Ahead of a media type -/

/-- A keyword and a space lead to a media type. -/
theorem leadIn_of_keyword {ahead : String} (hscan : scan 0 ahead.toList = [t])
    (hkeyword : ∀ input, step input .clauseStart t = .shift (.beforeType { inverse := inverse }))
    (hapart : EndsApart ahead) : LeadIn ahead [] (.beforeType { inverse := inverse }) where
  apart := hapart
  leads := by
    rw [hscan]
    exact .shift (hkeyword ahead) .stay
  still _ := rfl

theorem leadIn_not : LeadIn "not " [] (.beforeType { inverse := true }) := by
  have hscan : scan 0 "not ".toList = [Token.ofWord .not 0 ['n', 'o', 't']] := by cbv
  exact leadIn_of_keyword hscan (fun _ => rfl) ⟨' ', rfl, by decide⟩

theorem leadIn_only : LeadIn "only " [] (.beforeType {}) := by
  have hscan : scan 0 "only ".toList = [Token.ofWord .only 0 ['o', 'n', 'l', 'y']] := by cbv
  exact leadIn_of_keyword hscan (fun _ => rfl) ⟨' ', rfl, by decide⟩

/-- **A media type behind a keyword is read as one that begins a clause**, but for the inversion. -/
theorem walk_beforeType (ht : t.kind = .identifier) (inverse : Bool) (rest : List Token) :
    walk input t rest (.beforeType { inverse := inverse }) =
      (walk input t rest .clauseStart).mapFirst (Query.invert inverse) := by
  have hbehind : step input (.beforeType { inverse := inverse }) t =
      .shift (.afterType { inverse := inverse, mediaType := t.text } t) :=
    step_of_goOn? rfl rfl (by simp only [Phase.goOn?, ht])
  have halone : step input .clauseStart t = .shift (.afterType { mediaType := t.text } t) :=
    step_of_goOn? rfl rfl (by simp only [Phase.goOn?, Phase.ofWord?, ht])
  have hinvert : ({ inverse := inverse, mediaType := t.text } : Query) =
      Query.invert inverse { mediaType := t.text } := by
    rw [Query.invert, Bool.false_or]
  refine walk_of_alike (fun _ _ => rfl) ?_ rest
  rw [halone, hbehind]
  exact .shift (.afterType (Likeness.hacks_begun fun _ _ => rfl) hinvert rfl)

/-- A keyword has to be followed by a media type. -/
theorem step_beforeType_of_ne (ht : t.kind ≠ .identifier) (q : Query) :
    step input (.beforeType q) t = .stop (.problem t (.unexpected .mediaType t.found)) := by
  have hgoOn : Phase.goOn? "" t (.beforeType q) = none := by simp only [Phase.goOn?]
  exact step_eq_iff.mpr (.unexpected rfl rfl hgoOn (.inl rfl))

/-- **A keyword goes before a media type alone.** Where a text begins with an identifier, `not `
ahead of it inverts its first query, `only ` changes nothing, and a text that is refused is refused
behind either for the same error, so many bytes later. A text that begins with anything else, be it
a test, a hack, a keyword or its end, is refused behind either at its first token, also where it is
read alone. -/
theorem parse_keyword (s : String) : ∃ t ts, tokenize s = t :: ts ∧
    (t.kind = .identifier →
      (∀ q r, parse s = .ok (q :: r) →
        parse ("not " ++ s) = .ok ({ q with inverse := true } :: r) ∧
          parse ("only " ++ s) = .ok (q :: r)) ∧
      ∀ e, parse s = .error (.syntaxError e) →
        parse ("not " ++ s) = .error (.syntaxError ⟨4 + e.position, e.fragment, e.problem⟩) ∧
          parse ("only " ++ s) =
            .error (.syntaxError ⟨5 + e.position, e.fragment, e.problem⟩)) ∧
    (t.kind ≠ .identifier →
      (∃ e, parse ("not " ++ s) = .error (.syntaxError e) ∧ e.position = 4 + t.span.start ∧
        e.problem = .unexpected .mediaType t.found) ∧
      ∃ e, parse ("only " ++ s) = .error (.syntaxError e) ∧ e.position = 5 + t.span.start ∧
        e.problem = .unexpected .mediaType t.found) := by
  obtain ⟨t, ts, htokens⟩ := exists_cons_tokenize s
  refine ⟨t, ts, htokens, fun ht => ⟨?_, ?_⟩, fun ht => ⟨?_, ?_⟩⟩
  · intro q r hs
    have hnot := leadIn_not.parse_append_mapFirst htokens (walk_beforeType ht true ts) hs
    have honly := leadIn_only.parse_append_mapFirst htokens (walk_beforeType ht false ts) hs
    rw [q.invert_true] at hnot
    rw [q.invert_false] at honly
    exact ⟨hnot, honly⟩
  · intro e hs
    exact ⟨leadIn_not.parse_append_mapFirst_error htokens (walk_beforeType ht true ts) hs,
      leadIn_only.parse_append_mapFirst_error htokens (walk_beforeType ht false ts) hs⟩
  · exact leadIn_not.exists_parse_append_of_stop htokens (step_beforeType_of_ne ht _)
  · exact leadIn_only.exists_parse_append_of_stop htokens (step_beforeType_of_ne ht _)

/-- The first of two clauses is inverted and keeps the hack behind its type; a word too many is
refused four or five bytes later; and a test is read alone, but refused behind a keyword. -/
theorem parse_keyword_hack :
    parse ("not " ++ "tv\\9,(color)") = .ok [⟨true, "", "tv", "\\9", []⟩,
      ⟨false, "", "all", "", [⟨none, "color", none⟩]⟩] ∧
    parse ("only " ++ "tv\\9 x,y") =
      .error (.syntaxError ⟨10, "x", .unexpected .conjunctionOrEnd (.text "x")⟩) ∧
    parse "(color)" = .ok [⟨false, "", "all", "", [⟨none, "color", none⟩]⟩] ∧
    ∃ e, parse ("not " ++ "(color)") = .error (.syntaxError e) ∧ e.position = 4 ∧
      e.problem = .unexpected .mediaType (.text "(") := by
  have hlist : parse "tv\\9,(color)" = .ok [⟨false, "", "tv", "\\9", []⟩,
      ⟨false, "", "all", "", [⟨none, "color", none⟩]⟩] := by cbv
  have herror : parse "tv\\9 x,y" =
      .error (.syntaxError ⟨5, "x", .unexpected .conjunctionOrEnd (.text "x")⟩) := by cbv
  have htest : parse "(color)" = .ok [⟨false, "", "all", "", [⟨none, "color", none⟩]⟩] := by cbv
  have hfirst : (tokenize "tv\\9,(color)").head? = some ⟨.identifier, ⟨0, 2⟩, "tv"⟩ := by cbv
  have hfirst' : (tokenize "tv\\9 x,y").head? = some ⟨.identifier, ⟨0, 2⟩, "tv"⟩ := by cbv
  have hopen : (tokenize "(color)").head? = some ⟨.leftParen, ⟨0, 1⟩, "("⟩ := by cbv
  obtain ⟨t, ts, htokens, hread, -⟩ := parse_keyword "tv\\9,(color)"
  obtain ⟨t', ts', htokens', hread', -⟩ := parse_keyword "tv\\9 x,y"
  obtain ⟨u, us, htokens'', -, hrefuse⟩ := parse_keyword "(color)"
  rw [htokens] at hfirst
  rw [htokens'] at hfirst'
  rw [htokens''] at hopen
  cases hfirst
  cases hfirst'
  cases hopen
  exact ⟨((hread rfl).1 _ _ hlist).1, ((hread' rfl).2 _ herror).2, htest,
    (hrefuse (by decide)).1⟩

end MediaQuery
