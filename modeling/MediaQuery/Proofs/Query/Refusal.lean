import Mathlib
import MediaQuery.Proofs.Query.Outline

/-!
# Refusals — where and why a text is refused

Kinds and texts of the tokens alone decide whether a walk completes the list (`Completes`), and
otherwise at which token it stops and for what problem (`Fails`); there is one such token and one
such problem (`Fails.unique`). A text is read exactly if its tokens complete a list
(`exists_parse_iff_completes`), and it is refused exactly with the problem for which they fail, at
the place of the token that shows it (`parse_eq_error_iff`).
-/

namespace MediaQuery

/-- The outlines of the tokens take the walk from the phase to one that completes the list. -/
def Completes (phase : Phase) (tokens : List Token) : Prop :=
  ∃ front t back l last q, tokens = front ++ t :: back ∧
    Leads "" phase (front.map .outline) l last ∧ step "" last t.outline = .finish q

/-- The outlines of the tokens before the index take the walk to the token there, which stops it for
the problem. -/
def Fails (tokens : List Token) (k : Nat) (problem : Problem) : Prop :=
  ∃ front t back l last shown, tokens = front ++ t :: back ∧ front.length = k ∧
    Leads "" .clauseStart (front.map .outline) l last ∧
      step "" last t.outline = .stop (.problem shown problem)

/-! ## One outcome -/

/-- The move ends the walk. -/
def Move.Halts : Move → Prop
  | .shift _ | .next _ => False
  | .finish _ | .stop _ => True

/-- No path goes past a token that ends the walk. -/
theorem Leads.not_append_cons {input : String} {phase last last' : Phase} {ts us : List Token}
    {t : Token} {l l' : QueryList} (h : Leads input phase ts l last)
    (hs : (step input last t).Halts) (h' : Leads input phase (ts ++ t :: us) l' last') : False := by
  obtain ⟨l₁, l₂, middle, h₁, h₂, -⟩ := h'.exists_of_append
  obtain ⟨-, rfl⟩ := h.unique h₁
  cases h₂ with
  | shift hs' => rw [hs'] at hs; exact hs
  | next hs' => rw [hs'] at hs; exact hs

section Outcome

variable {tokens front front' back back' : List Token} {t t' : Token} {l l' : QueryList}
  {last last' : Phase}

theorem length_le_of_halts (heq : front ++ t :: back = front' ++ t' :: back')
    (h : Leads "" .clauseStart (front.map .outline) l last) (hs : (step "" last t.outline).Halts)
    (h' : Leads "" .clauseStart (front'.map .outline) l' last') : front'.length ≤ front.length := by
  by_contra hlt
  rw [not_le] at hlt
  obtain ⟨more, rfl⟩ : front ++ [t] <+: front' := by
    have hall : front ++ [t] <+: front' ++ t' :: back' :=
      ⟨back, by rw [← List.append_cons, heq]⟩
    refine List.prefix_of_prefix_length_le hall (List.prefix_append front' _) ?_
    rw [List.length_append]
    exact hlt
  rw [List.append_assoc, List.map_append, List.singleton_append, List.map_cons] at h'
  exact h.not_append_cons hs h'

/-- There is one path to a token that ends the walk. -/
theorem eq_of_halts (heq : front ++ t :: back = front' ++ t' :: back')
    (h : Leads "" .clauseStart (front.map .outline) l last) (hs : (step "" last t.outline).Halts)
    (h' : Leads "" .clauseStart (front'.map .outline) l' last')
    (hs' : (step "" last' t'.outline).Halts) : front = front' ∧ t = t' ∧ last = last' := by
  have hle := length_le_of_halts heq h hs h'
  have hge := length_le_of_halts heq.symm h' hs' h
  obtain ⟨rfl, hcons⟩ := List.append_inj heq (Nat.le_antisymm hge hle)
  obtain ⟨-, rfl⟩ := h.unique h'
  exact ⟨rfl, (List.cons.inj hcons).1, rfl⟩

/-- Tokens fail in one place, for one problem. -/
theorem Fails.unique {k k' : Nat} {problem problem' : Problem} (h : Fails tokens k problem)
    (h' : Fails tokens k' problem') : k = k' ∧ problem = problem' := by
  obtain ⟨front, t, back, l, last, shown, heq, rfl, hleads, hs⟩ := h
  obtain ⟨front', t', back', l', last', shown', heq', rfl, hleads', hs'⟩ := h'
  obtain ⟨rfl, rfl, rfl⟩ := eq_of_halts (heq.symm.trans heq') hleads (by rw [hs]; trivial) hleads'
    (by rw [hs']; trivial)
  rw [hs] at hs'
  cases hs'
  exact ⟨rfl, rfl⟩

/-- Tokens that fail complete no list. -/
theorem Fails.not_completes {k : Nat} {problem : Problem} (h : Fails tokens k problem) :
    ¬ Completes .clauseStart tokens := by
  rintro ⟨front', t', back', l', last', q, heq', hleads', hs'⟩
  obtain ⟨front, t, back, l, last, shown, heq, -, hleads, hs⟩ := h
  obtain ⟨rfl, rfl, rfl⟩ := eq_of_halts (heq.symm.trans heq') hleads (by rw [hs]; trivial) hleads'
    (by rw [hs']; trivial)
  rw [hs] at hs'
  cases hs'

/-- A problem is placed at a token that there is. -/
theorem Fails.delay_le {k : Nat} {problem : Problem} (h : Fails tokens k problem) :
    problem.delay ≤ k ∧ k < tokens.length := by
  obtain ⟨front, t, back, l, last, shown, rfl, rfl, hleads, hs⟩ := h
  obtain ⟨xs, ys, heq, hlength⟩ := hleads.exists_shown (shows_of_step hs)
  have hcount := congrArg List.length heq
  simp only [List.length_append, List.length_map, List.length_cons, List.length_nil] at hcount ⊢
  omega

/-- Tokens that begin with the kinds and texts of others have the outlines of those. -/
theorem exists_of_prefix {us : List Token}
    (h : (front ++ [t]).map Token.spelling <+: us.map Token.spelling) :
    ∃ front' t' back', us = front' ++ t' :: back' ∧ front'.length = front.length ∧
      front'.map Token.outline = front.map Token.outline ∧ t'.outline = t.outline := by
  obtain ⟨rest, hrest⟩ := h
  rw [List.map_append, List.append_assoc] at hrest
  obtain ⟨front', tail, rfl, hfront, htail⟩ := List.map_eq_append_iff.mp hrest.symm
  obtain ⟨t', back', rfl, ht, -⟩ := List.map_eq_cons_iff.mp htail
  refine ⟨front', t', back', rfl, ?_, map_outline_eq_iff.mpr hfront, Token.outline_eq_iff.mpr ht⟩
  rw [← List.length_map Token.spelling, hfront, List.length_map]

/-- **Where tokens fail, nothing behind matters**: all that begin with the same kinds and texts fail
there too, for the same problem. -/
theorem Fails.of_prefix {us : List Token} {k : Nat} {problem : Problem} (h : Fails tokens k problem)
    (hbegins : (tokens.map Token.spelling).take (k + 1) <+: us.map Token.spelling) :
    Fails us k problem := by
  obtain ⟨front, t, back, l, last, shown, rfl, rfl, hleads, hs⟩ := h
  rw [← List.map_take, List.append_cons, List.take_left' (by rw [List.length_append]; rfl)]
    at hbegins
  obtain ⟨front', t', back', rfl, hlength, hfront, ht⟩ := exists_of_prefix hbegins
  rw [← hfront] at hleads
  rw [← ht] at hs
  exact ⟨front', t', back', l, last, shown, rfl, hlength, hleads, hs⟩

/-- Whether tokens complete a list depends on their kinds and texts alone. -/
theorem Completes.of_spelling {us : List Token} {phase : Phase} (h : Completes phase tokens)
    (heq : tokens.map Token.spelling = us.map Token.spelling) : Completes phase us := by
  obtain ⟨front, t, back, l, last, q, rfl, hleads, hs⟩ := h
  have hbegins : (front ++ [t]).map Token.spelling <+: us.map Token.spelling :=
    ⟨back.map Token.spelling, by rw [← heq, ← List.map_append, ← List.append_cons]⟩
  obtain ⟨front', t', back', rfl, -, hfront, ht⟩ := exists_of_prefix hbegins
  rw [← hfront] at hleads
  rw [← ht] at hs
  exact ⟨front', t', back', l, last, q, rfl, hleads, hs⟩

/-- Tokens behind others complete a list from where these lead. -/
theorem Completes.append_left {phase first : Phase} (h : Completes phase tokens)
    (hfront : Leads "" first (front.map .outline) l phase) :
    Completes first (front ++ tokens) := by
  obtain ⟨front', t, back, l', last, q, rfl, hleads, hs⟩ := h
  refine ⟨front ++ front', t, back, l ++ l', last, q, (List.append_assoc ..).symm, ?_, hs⟩
  rw [List.map_append]
  exact hfront.append hleads

end Outcome

/-! ## The outcome of reading -/

variable {input : String}

/-- **A text is read if its tokens complete a list.** -/
theorem completes_of_parse {l : QueryList} (h : parse input = .ok l) :
    Completes .clauseStart (tokenize input) := by
  obtain ⟨front, t, back, l', last, q, htokens, hleads, hs, -⟩ := parse_eq_ok_iff_leads.mp h
  exact ⟨front, t, back, _, _, _, htokens, hleads.outline, finish_outline hs⟩

/-- A token behind others stands at their number. -/
theorem getElem?_behind (front : List Token) (t : Token) (back : List Token) :
    (front ++ t :: back)[front.length]? = some t := by
  rw [List.getElem?_append_right (Nat.le_refl _), Nat.sub_self]
  rfl

/-- A refused text has a token at the place of the error, to which there is a path, and its tokens
fail for the problem there or so many tokens later. -/
theorem exists_leads_of_error {failure : Failure} (h : parse input = .error failure) :
    ∃ e front shown back l phase, failure = .syntaxError e ∧
      tokenize input = front ++ shown :: back ∧ Leads input .clauseStart front l phase ∧
        Fails (tokenize input) (front.length + e.problem.delay) e.problem ∧
          locate input (tokenize input) shown e.problem = .syntaxError e := by
  rcases parse_cases input with ⟨l, hok⟩ |
    ⟨before, t, after, l, last, shown, problem, e, htokens, hleads, hs, he, herror⟩
  · rw [hok] at h
    cases h
  · rw [herror] at h
    cases h
    obtain rfl := (eq_of_locate he).2
    obtain ⟨front, rest, middle, heq, hlength, hfront⟩ :=
      hleads.exists_front_of_shows (shows_of_step hs) after
    have hfails : Fails (tokenize input) (front.length + e.problem.delay) e.problem :=
      ⟨before, t, after, _, _, _, htokens, hlength, hleads.outline, problem_outline hs⟩
    exact ⟨e, front, shown, rest, l, middle, rfl, htokens.trans heq, hfront, hfails, he⟩

/-- What a refusal says: the tokens fail for its problem, at the token that it is placed at or so
many after it. -/
theorem exists_fails_of_parse {e : SyntaxError} (h : parse input = .error (.syntaxError e)) :
    ∃ k problem shown, Fails (tokenize input) k problem ∧
      (tokenize input)[k - problem.delay]? = some shown ∧
        locate input (tokenize input) shown problem = .syntaxError e := by
  obtain ⟨e', front, shown, back, l, phase, heq, htokens, -, hfails, he⟩ :=
    exists_leads_of_error h
  cases heq
  refine ⟨_, _, shown, hfails, ?_, he⟩
  rw [htokens, Nat.add_sub_cancel]
  exact getElem?_behind front shown back

theorem exists_parse_iff_completes :
    (∃ l, parse input = .ok l) ↔ Completes .clauseStart (tokenize input) := by
  constructor
  · rintro ⟨l, h⟩
    exact completes_of_parse h
  · intro h
    rcases parse_cases input with hok | ⟨_, _, _, _, _, _, _, e, _, _, _, _, herror⟩
    · exact hok
    · obtain ⟨k, problem, shown, hfails, -⟩ := exists_fails_of_parse herror
      exact absurd h hfails.not_completes

/-- **A text is refused with the problem for which its tokens fail**, at the token that shows it. -/
theorem parse_eq_error_iff {e : SyntaxError} :
    parse input = .error (.syntaxError e) ↔
      ∃ k problem shown, Fails (tokenize input) k problem ∧
        (tokenize input)[k - problem.delay]? = some shown ∧
          locate input (tokenize input) shown problem = .syntaxError e := by
  constructor
  · exact exists_fails_of_parse
  · rintro ⟨k, problem, shown, hfails, hshown, he⟩
    rcases parse_cases input with ⟨l, hok⟩ | ⟨_, _, _, _, _, _, _, e', _, _, _, _, herror⟩
    · exact absurd (completes_of_parse hok) hfails.not_completes
    · obtain ⟨k', problem', shown', hfails', hshown', he'⟩ := exists_fails_of_parse herror
      obtain ⟨rfl, rfl⟩ := hfails.unique hfails'
      obtain rfl := Option.some.inj (hshown.symm.trans hshown')
      rw [he] at he'
      cases he'
      exact herror

/-- What a text is refused for depends on the kinds and the texts of its tokens alone. -/
theorem exists_error_of_spelling {other : String} {e : SyntaxError}
    (heq : (tokenize input).map Token.spelling = (tokenize other).map Token.spelling)
    (h : parse input = .error (.syntaxError e)) :
    ∃ e', parse other = .error (.syntaxError e') ∧ e'.problem = e.problem := by
  obtain ⟨k, problem, shown, hfails, hshown, he⟩ := exists_fails_of_parse h
  have hfails' : Fails (tokenize other) k problem := by
    refine hfails.of_prefix ?_
    rw [heq]
    exact List.take_prefix _ _
  have hlt : k - problem.delay < (tokenize other).length :=
    Nat.lt_of_le_of_lt (Nat.sub_le _ _) hfails'.delay_le.2
  have hshown' := List.getElem?_eq_getElem hlt
  obtain ⟨e', he'⟩ := exists_locate (List.mem_of_getElem? hshown') problem
  exact ⟨e', parse_eq_error_iff.mpr ⟨k, problem, _, hfails', hshown', he'⟩,
    (eq_of_locate he').2.trans (eq_of_locate he).2.symm⟩

end MediaQuery
