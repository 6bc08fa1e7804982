import Mathlib
import MediaQuery.Proofs.Query.Behind
import MediaQuery.Proofs.Query.Comma
import MediaQuery.Proofs.Query.Refusal

/-!
# The first fault — what is wrong with a text, in a longer one

A text with a comma behind it fails where it did before, except that the comma is found where the
end was (`Fails.replace_end`). A text that is read is a lead-in with a comma behind it
(`leadIn_comma`), so behind clauses that are complete the next ones fail as they do alone.
-/

namespace MediaQuery

/-! ## A comma for the end -/

section Comma

variable {t comma : Token}

/-- At an end of a clause only what came before it can be at fault. -/
theorem IsFault.delay_eq {phase : Phase} {shown : Token} {problem : Problem}
    (h : IsFault phase t shown problem) (ht : t.kind = .eof) : problem.delay = 1 := by
  cases h with
  | missingValue => rfl
  | numeratorUnit => rfl
  | denominatorUnit hnumber =>
    rw [ht] at hnumber
    cases hnumber

/-- **Tokens that fail, fail with a comma for their end**: for the same problem, which is placed at
one of them, or because of the comma where it was because of the end. -/
theorem Fails.replace_end {ts us : List Token} {k : Nat} {problem : Problem}
    (h : Fails (ts ++ [t]) k problem) (ht : t.kind = .eof) (hcomma : comma.kind = .comma) :
    (Fails (ts ++ comma :: us) k problem ∧ k - problem.delay < ts.length) ∨
      ∃ what, k = ts.length ∧ problem = .unexpected what .endOfInput ∧
        Fails (ts ++ comma :: us) k (.unexpected what comma.found) := by
  obtain ⟨hdelay, hk⟩ := h.delay_le
  rw [List.length_append, List.length_singleton] at hk
  by_cases hlt : k < ts.length
  · left
    refine ⟨h.of_prefix ?_, by omega⟩
    rw [List.map_append, List.map_append,
      List.take_append_of_le_length (by rw [List.length_map]; exact hlt)]
    exact (List.take_prefix _ _).trans (List.prefix_append _ _)
  · obtain ⟨front, t', back, l, last, shown, heq, hlength, hleads, hs⟩ := h
    have hcount : ts.length = front.length := by omega
    obtain ⟨rfl, hcons⟩ := List.append_inj heq hcount
    obtain rfl := (List.cons.inj hcons).1
    have hends : t.outline.kind.endsClause = true := by
      rw [t.outline_kind, ht]
      rfl
    have hends' : comma.outline.kind.endsClause = true := by
      rw [comma.outline_kind, hcomma]
      rfl
    -- the comma stops the walk as the end did
    rcases stop_of_endsClause hs hends hends' rfl with ⟨hfault, hmove⟩ | ⟨rfl, hmove⟩
    · left
      have hone := hfault.delay_eq (t.outline_kind.trans ht)
      exact ⟨⟨ts, comma, us, l, _, _, rfl, hlength, hleads, hmove⟩, by omega⟩
    · right
      have hfound : t.outline.found = .endOfInput := by rw [Token.found, t.outline_kind, ht]
      refine ⟨last.expects, hlength.symm, by rw [hfound], ts, comma, us, l, last, _, rfl, hlength,
        hleads, hmove⟩

end Comma

/-! ## Texts with a comma between them -/

section Texts

variable {a b : String}

/-- The tokens of two texts with a comma between them, those of the second moved behind it. -/
theorem tokenize_comma (a b : String) :
    tokenize (a ++ "," ++ b) =
      scan 0 a.toList ++ Token.ofWord .comma (byteLength a.toList) [','] ::
        (tokenize b).map (Token.shift (byteLength a.toList + 1)) := by
  have hcomma : isSeparator ',' = true := by decide
  have hsplit := tokenize_append_cons hcomma a b
  rwa [List.append_assoc] at hsplit

/-- The clause of a token of the first text ends where it did. -/
theorem isClauseEnd_comma_front {t : Token} {n : Nat} (ht : t ∈ scan 0 a.toList)
    (h : IsClauseEnd (tokenize a) t n) : IsClauseEnd (tokenize (a ++ "," ++ b)) t n := by
  have hbounds := bounds_of_mem_scan ht
  rw [Nat.zero_add] at hbounds
  rw [tokenize_comma]
  exact h.replace hbounds.2.2 rfl rfl rfl

/-- A text that is refused, is refused with a comma behind it: for the same error, or because of the
comma where it was because of the end. -/
theorem parse_comma_of_error {e : SyntaxError} (h : parse a = .error (.syntaxError e)) :
    (e.position < byteLength a.toList ∧ parse (a ++ "," ++ b) = .error (.syntaxError e)) ∨
      e.position = byteLength a.toList ∧ ∃ what e', e.problem = .unexpected what .endOfInput ∧
        parse (a ++ "," ++ b) = .error (.syntaxError e') ∧
          e'.position = byteLength a.toList ∧ e'.problem = .unexpected what (.text ",") := by
  obtain ⟨k, problem, shown, hfails, hshown, he⟩ := exists_fails_of_parse h
  have hmem := List.mem_of_getElem? hshown
  obtain ⟨hposition, hproblem⟩ := eq_of_locate he
  have hcases : (Fails (tokenize (a ++ "," ++ b)) k problem ∧
      k - problem.delay < (scan 0 a.toList).length) ∨
        ∃ what, k = (scan 0 a.toList).length ∧ problem = .unexpected what .endOfInput ∧
          Fails (tokenize (a ++ "," ++ b)) k (.unexpected what (.text ",")) := by
    rw [tokenize_comma]
    exact hfails.replace_end rfl rfl
  rcases hcases with ⟨hfails', hindex⟩ | ⟨what, rfl, rfl, hfails'⟩
  · left
    rw [tokenize, List.getElem?_append_left hindex] at hshown
    have hscan := List.mem_of_getElem? hshown
    have hbounds := bounds_of_mem_scan hscan
    refine ⟨by omega, parse_eq_error_iff.mpr ⟨k, problem, shown, hfails', ?_, ?_⟩⟩
    · rw [tokenize_comma, List.getElem?_append_left hindex]
      exact hshown
    · obtain ⟨n, hend⟩ := exists_isClauseEnd hmem
      have hend' : IsClauseEnd (tokenize (a ++ "," ++ b)) (shown.shift 0) (0 + n) := by
        rw [shown.shift_zero, Nat.zero_add]
        exact isClauseEnd_comma_front hscan hend
      have hpart : IsPart (a ++ "," ++ b) 0 (byteLength a.toList) a := by
        rw [String.append_assoc]
        exact isPart_append_left a ("," ++ b)
      have hlocate := locate_of_part hpart hend hend' he
      rw [shown.shift_zero, Nat.zero_add] at hlocate
      exact hlocate
  · right
    have hat : (tokenize (a ++ "," ++ b))[(scan 0 a.toList).length]? =
        some (Token.ofWord .comma (byteLength a.toList) [',']) := by
      rw [tokenize_comma]
      exact getElem?_behind _ _ _
    obtain rfl : Token.endAt (byteLength a.toList) = shown :=
      Option.some.inj ((getElem?_behind _ _ []).symm.trans hshown)
    obtain ⟨e', he'⟩ := exists_locate (List.mem_of_getElem? hat) (.unexpected what (.text ","))
    obtain ⟨hposition', hproblem'⟩ := eq_of_locate he'
    exact ⟨hposition, what, e', hproblem,
      parse_eq_error_iff.mpr ⟨_, _, _, hfails', hat, he'⟩, hposition', hproblem'⟩

/-- A text that is read and a comma behind it lead to the beginning of a clause. -/
theorem leadIn_comma {l : QueryList} (h : parse a = .ok l) : LeadIn (a ++ ",") l .clauseStart where
  apart := EndsApart.append ⟨',', rfl, by decide⟩ a
  leads := by
    obtain ⟨front, phase, last, rfl, hleads, hs⟩ := exists_leads_append h ","
    have hmove : step (a ++ ",") phase (Token.ofWord .comma (byteLength a.toList) [',']) =
        .next last := next_of_finish hs rfl
    have hscan : scan 0 (a ++ ",").toList =
        scan 0 a.toList ++ [Token.ofWord .comma (byteLength a.toList) [',']] := by
      rw [String.toList_append]
      exact (scan_comma a.toList []).trans (by rw [scan, List.map_nil])
    rw [hscan]
    exact hleads.append (.next hmove .stay)
  still _ := rfl

/-- A text that is refused, is refused behind clauses that are complete, so many bytes later. -/
theorem parse_comma_of_ok {l : QueryList} {e : SyntaxError} (ha : parse a = .ok l)
    (hb : parse b = .error (.syntaxError e)) :
    parse (a ++ "," ++ b) =
      .error (.syntaxError ⟨byteLength a.toList + 1 + e.position, e.fragment, e.problem⟩) := by
  obtain ⟨t, ts, htokens⟩ := exists_cons_tokenize b
  obtain ⟨clauses, shown, hshown, hwalk, he⟩ := exists_walk_of_parse htokens hb
  have herror := (leadIn_comma ha).parse_append_error htokens hwalk hshown he
  rwa [String.toList_append, byteLength_append] at herror

end Texts

theorem message_unexpected (what : Expected) (found : Found) :
    (Problem.unexpected what found).message =
      "Expected " ++ what.words ++ ", " ++ ("got " ++ found.words) := by
  have hgot : ", got " = ", " ++ "got " := by decide
  simp only [Problem.message, hgot, String.append_assoc]

/-- **The first fault is the one that is reported.** A text that is refused before its end is
refused for the same error with a comma and any text behind it; one that is refused at its end is
refused there, because of the comma instead of the end; and behind a text that is read and a comma,
a text is refused for its own error, so many bytes later. -/
theorem parse_firstFault (a b : String) :
    (∀ e, parse a = .error (.syntaxError e) → e.position < byteLength a.toList →
      parse (a ++ "," ++ b) = .error (.syntaxError e)) ∧
    (∀ e, parse a = .error (.syntaxError e) → e.position = byteLength a.toList →
      ∃ e' before, parse (a ++ "," ++ b) = .error (.syntaxError e') ∧
        e'.position = byteLength a.toList ∧ e.detail = before ++ "got end of input" ∧
          e'.detail = before ++ "got ','") ∧
    ∀ l e, parse a = .ok l → parse b = .error (.syntaxError e) →
      parse (a ++ "," ++ b) =
        .error (.syntaxError ⟨byteLength a.toList + 1 + e.position, e.fragment, e.problem⟩) := by
  refine ⟨?_, ?_, fun l e => parse_comma_of_ok⟩
  · intro e h hposition
    rcases parse_comma_of_error h with ⟨-, hsame⟩ | ⟨hend, -⟩
    · exact hsame
    · omega
  · intro e h hposition
    rcases parse_comma_of_error h with ⟨hbefore, -⟩ | ⟨-, what, e', hproblem, h', hend, hproblem'⟩
    · omega
    · refine ⟨e', "Expected " ++ what.words ++ ", ", h', hend, ?_, ?_⟩
      · rw [SyntaxError.detail, hproblem, message_unexpected]
        rfl
      · rw [SyntaxError.detail, hproblem', message_unexpected]
        rfl

/-- A feature without its value, a keyword without a media type, and a test that is left open behind
a media type. -/
theorem parse_firstFault_open :
    parse ("(min-width" ++ "," ++ "tv") =
      .error (.syntaxError ⟨1, "min-width", .missingValue .min "min-width"⟩) ∧
    (∃ e' before, parse ("not" ++ "," ++ "tv") = .error (.syntaxError e') ∧ e'.position = 3 ∧
      "Expected media type, got end of input" = before ++ "got end of input" ∧
        e'.detail = before ++ "got ','") ∧
    parse ("tv" ++ "," ++ "(color") =
      .error (.syntaxError ⟨9, "", .unexpected .closeParen .endOfInput⟩) := by
  have hvalue : parse "(min-width" =
      .error (.syntaxError ⟨1, "min-width", .missingValue .min "min-width"⟩) := by cbv
  have hkeyword : parse "not" =
      .error (.syntaxError ⟨3, "", .unexpected .mediaType .endOfInput⟩) := by cbv
  have htype : parse "tv" = .ok [{ mediaType := "tv" }] := by cbv
  have hopen : parse "(color" =
      .error (.syntaxError ⟨6, "", .unexpected .closeParen .endOfInput⟩) := by cbv
  exact ⟨(parse_firstFault "(min-width" "tv").1 _ hvalue (by decide),
    (parse_firstFault "not" "tv").2.1 _ hkeyword rfl,
    (parse_firstFault "tv" "(color").2.2 _ _ htype hopen⟩

end MediaQuery
