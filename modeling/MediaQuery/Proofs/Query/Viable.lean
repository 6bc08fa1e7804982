import Mathlib
import MediaQuery.Proofs.Query.Moved
import MediaQuery.Proofs.Query.Refusal

/-!
# Viable prefixes — a text is refused at the first token that leaves no hope

From every phase of the walk there is a way to the end of the list (`Phase.rest`), and a space in
front of it keeps it apart from the tokens before. So whatever stands before the place of a problem
can be completed to a text that is read. But no text is read whose tokens begin with those of a
refused text up to the token that shows the problem. The two together are `parse_viable`: the place
of a problem is right, and the problem is seen as soon as it can be.
-/

namespace MediaQuery

/-! ## Ways to the end -/

/-- A text that completes the list from the phase. -/
def Phase.rest : Phase → String
  | .clauseStart | .afterHack _ | .beforeType _ => "a"
  | .afterType .. | .afterPart _ => ""
  | .beforeTest _ => "(a)"
  | .beforeName _ => "a)"
  | .afterName .. => ":1)"
  | .beforeValue .. | .beforeDenominator .. => "1)"
  | .afterNumber .. | .afterOperand .. | .beforeClose .. => ")"

/-- **Every phase can be completed**, with a space in front. -/
theorem completes_rest (phase : Phase) :
    Completes phase.outline (tokenize (" " ++ phase.rest)) := by
  have htype : tokenize (" " ++ "a") = [⟨.identifier, ⟨1, 2⟩, "a"⟩] ++
      [⟨.eof, ⟨2, 2⟩, ""⟩] := by cbv
  have hend : tokenize (" " ++ "") = [] ++ [⟨.eof, ⟨1, 1⟩, ""⟩] := by cbv
  have htest : tokenize (" " ++ "(a)") = [⟨.leftParen, ⟨1, 2⟩, "("⟩, ⟨.identifier, ⟨2, 3⟩, "a"⟩,
      ⟨.rightParen, ⟨3, 4⟩, ")"⟩] ++ [⟨.eof, ⟨4, 4⟩, ""⟩] := by cbv
  have hname : tokenize (" " ++ "a)") = [⟨.identifier, ⟨1, 2⟩, "a"⟩,
      ⟨.rightParen, ⟨2, 3⟩, ")"⟩] ++ [⟨.eof, ⟨3, 3⟩, ""⟩] := by cbv
  have hcolon : tokenize (" " ++ ":1)") = [⟨.colon, ⟨1, 2⟩, ":"⟩, ⟨.number, ⟨2, 3⟩, "1"⟩,
      ⟨.rightParen, ⟨3, 4⟩, ")"⟩] ++ [⟨.eof, ⟨4, 4⟩, ""⟩] := by cbv
  have hnumber : tokenize (" " ++ "1)") = [⟨.number, ⟨1, 2⟩, "1"⟩,
      ⟨.rightParen, ⟨2, 3⟩, ")"⟩] ++ [⟨.eof, ⟨3, 3⟩, ""⟩] := by cbv
  have hclose : tokenize (" " ++ ")") = [⟨.rightParen, ⟨1, 2⟩, ")"⟩] ++
      [⟨.eof, ⟨2, 2⟩, ""⟩] := by cbv
  -- every step of the way is a move of the walk over outlines
  cases phase with
  | clauseStart => exact ⟨_, _, [], _, _, _, htype, .shift rfl .stay, rfl⟩
  | afterHack hack => exact ⟨_, _, [], _, _, _, htype, .shift rfl .stay, rfl⟩
  | beforeType q => exact ⟨_, _, [], _, _, _, htype, .shift rfl .stay, rfl⟩
  | afterType q type => exact ⟨_, _, [], _, _, _, hend, .stay, rfl⟩
  | afterPart q => exact ⟨_, _, [], _, _, _, hend, .stay, rfl⟩
  | beforeTest q =>
    exact ⟨_, _, [], _, _, _, htest, .shift rfl (.shift rfl (.shift rfl .stay)), rfl⟩
  | beforeName q => exact ⟨_, _, [], _, _, _, hname, .shift rfl (.shift rfl .stay), rfl⟩
  | afterName q name =>
    exact ⟨_, _, [], _, _, _, hcolon, .shift rfl (.shift rfl (.shift rfl .stay)), rfl⟩
  | beforeValue q name => exact ⟨_, _, [], _, _, _, hnumber, .shift rfl (.shift rfl .stay), rfl⟩
  | afterNumber q name number => exact ⟨_, _, [], _, _, _, hclose, .shift rfl .stay, rfl⟩
  | beforeDenominator q name numerator =>
    exact ⟨_, _, [], _, _, _, hnumber, .shift rfl (.shift rfl .stay), rfl⟩
  | afterOperand q name first last => exact ⟨_, _, [], _, _, _, hclose, .shift rfl .stay, rfl⟩
  | beforeClose q test => exact ⟨_, _, [], _, _, _, hclose, .shift rfl .stay, rfl⟩

/-- A space parts the tokens of two texts. -/
theorem tokenize_append_space (s more : String) :
    tokenize (s ++ (" " ++ more)) =
      scan 0 s.toList ++ (tokenize (" " ++ more)).map (Token.shift (byteLength s.toList)) := by
  have hmore : (" " ++ more).toList = ' ' :: more.toList := String.toList_append
  have hscan := scan_append_separator (s := ' ') (by decide) 0 s.toList more.toList
  rw [← hmore, Nat.zero_add] at hscan
  rw [tokenize, tokenize, String.toList_append, hscan, byteLength_append, List.map_append,
    ← scan_add, Nat.add_zero, List.append_assoc]
  rfl

/-- **What takes the walk to a phase can be completed** to a text that is read. -/
theorem exists_parse_append {input s : String} {l : QueryList} {phase : Phase}
    (h : Leads input .clauseStart (scan 0 s.toList) l phase) :
    ∃ more l', parse (s ++ more) = .ok l' := by
  have hrest : Completes phase.outline
      ((tokenize (" " ++ phase.rest)).map (Token.shift (byteLength s.toList))) :=
    (completes_rest phase).of_spelling (map_spelling_shift _ _).symm
  have hall := hrest.append_left h.outline
  rw [← tokenize_append_space] at hall
  exact ⟨" " ++ phase.rest, exists_parse_iff_completes.mpr hall⟩

/-! ## Hopeless tokens -/

/-- **No text is read that begins with tokens that fail.** -/
theorem Fails.ne_of_parse {input other : String} {k : Nat} {problem : Problem} {l : QueryList}
    (h : Fails (tokenize input) k problem) (hother : parse other = .ok l) :
    ((tokenize other).map Token.spelling).take (k + 1) ≠
      ((tokenize input).map Token.spelling).take (k + 1) := by
  intro heq
  have hfails : Fails (tokenize other) k problem := by
    refine h.of_prefix ?_
    rw [← heq]
    exact List.take_prefix _ _
  exact hfails.not_completes (completes_of_parse hother)

/-- **A problem is seen where it must be, at the place where it is.** Let a text be refused, let
token `i` be the one that starts at the place of the error, and let token `j` be the same one, or
the next one for a bound without a value and a numerator with a unit. What stands before the place
can be completed to a text that is read; but no text is read whose tokens have the kinds and texts
of this one's up to token `j`. -/
theorem parse_viable (input : String) (failure : Failure) (h : parse input = .error failure) :
    ∃ e i, failure = .syntaxError e ∧
      (∀ k, (∃ t, (tokenize input)[k]? = some t ∧ t.span.start = e.position) ↔ k = i) ∧
      i + e.problem.delay < (tokenize input).length ∧
      (∃ front more l, IsPart input 0 e.position front ∧ parse (front ++ more) = .ok l) ∧
      ∀ other l, parse other = .ok l →
        ((tokenize other).map Token.spelling).take (i + e.problem.delay + 1) ≠
          ((tokenize input).map Token.spelling).take (i + e.problem.delay + 1) := by
  obtain ⟨e, front, shown, back, l, phase, rfl, htokens, hleads, hfails, he⟩ :=
    exists_leads_of_error h
  have hposition := (eq_of_locate he).1
  have hshown : (tokenize input)[front.length]? = some shown := by
    rw [htokens]
    exact getElem?_behind front shown back
  refine ⟨e, front.length, rfl, ?_, hfails.delay_le.2, ?_, fun other l => hfails.ne_of_parse⟩
  · intro k
    constructor
    · rintro ⟨t, ht, hstart⟩
      exact index_eq_of_start ht hshown (hstart.trans hposition)
    · rintro rfl
      exact ⟨shown, hshown, hposition.symm⟩
  · obtain ⟨cs, rest, htext, rfl, hstart⟩ := exists_front_of_tokenize htokens
    rw [← String.toList_ofList (l := cs)] at hleads
    obtain ⟨more, l', hl'⟩ := exists_parse_append hleads
    refine ⟨String.ofList cs, more, l', ?_, hl'⟩
    rw [hposition, ← hstart]
    refine isPart_iff.mpr ⟨[], rest, ?_, rfl, ?_⟩
    · rw [String.toList_ofList]
      exact htext
    · rw [String.toList_ofList]
      exact Nat.zero_add _

/-- A bound without a value is at fault at its name, where the parenthesis shows it: a test may open
so, but none goes on so. A percentage is at fault where a slash makes it the numerator of a
fraction. -/
theorem parse_viable_bound :
    parse "(min-width)" =
      .error (.syntaxError ⟨1, "min-width)", .missingValue .min "min-width"⟩) ∧
    (∃ more l, parse ("(" ++ more) = .ok l) ∧
    (∀ other l, parse other = .ok l → ((tokenize other).map Token.spelling).take 3 ≠
      [(.leftParen, "("), (.identifier, "min-width"), (.rightParen, ")")]) ∧
    parse "(a:50%/2)" = .error (.syntaxError ⟨3, "50%/2)", .numeratorUnit⟩) ∧
    (∃ more l, parse ("(a:" ++ more) = .ok l) ∧
    ∀ other l, parse other = .ok l → ((tokenize other).map Token.spelling).take 5 ≠
      [(.leftParen, "("), (.identifier, "a"), (.colon, ":"), (.number, "50%"), (.slash, "/")] := by
  have herror : parse "(min-width)" =
      .error (.syntaxError ⟨1, "min-width)", .missingValue .min "min-width"⟩) := by cbv
  have herror' : parse "(a:50%/2)" =
      .error (.syntaxError ⟨3, "50%/2)", .numeratorUnit⟩) := by cbv
  have htokens : tokenize "(min-width)" = [⟨.leftParen, ⟨0, 1⟩, "("⟩,
      ⟨.identifier, ⟨1, 10⟩, "min-width"⟩, ⟨.rightParen, ⟨10, 11⟩, ")"⟩,
      ⟨.eof, ⟨11, 11⟩, ""⟩] := by cbv
  have htokens' : tokenize "(a:50%/2)" = [⟨.leftParen, ⟨0, 1⟩, "("⟩, ⟨.identifier, ⟨1, 2⟩, "a"⟩,
      ⟨.colon, ⟨2, 3⟩, ":"⟩, ⟨.number, ⟨3, 6⟩, "50%"⟩, ⟨.slash, ⟨6, 7⟩, "/"⟩,
      ⟨.number, ⟨7, 8⟩, "2"⟩, ⟨.rightParen, ⟨8, 9⟩, ")"⟩, ⟨.eof, ⟨9, 9⟩, ""⟩] := by cbv
  obtain ⟨e, i, he, hi, -, ⟨front, more, l, hfront, hmore⟩, hhopeless⟩ :=
    parse_viable "(min-width)" _ herror
  obtain ⟨e', j, he', hj, -, ⟨front', more', l', hfront', hmore'⟩, hhopeless'⟩ :=
    parse_viable "(a:50%/2)" _ herror'
  cases he
  cases he'
  rw [htokens] at hi hhopeless
  rw [htokens'] at hj hhopeless'
  obtain rfl : 1 = i := (hi 1).mp ⟨_, rfl, rfl⟩
  obtain rfl : 3 = j := (hj 3).mp ⟨_, rfl, rfl⟩
  obtain rfl : front = "(" := hfront.unique (by rw [IsPart]; cbv)
  obtain rfl : front' = "(a:" := hfront'.unique (by rw [IsPart]; cbv)
  exact ⟨herror, ⟨more, l, hmore⟩, hhopeless, herror', ⟨more', l', hmore'⟩, hhopeless'⟩

end MediaQuery
