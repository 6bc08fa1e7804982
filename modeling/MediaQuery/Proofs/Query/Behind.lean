import Mathlib
import MediaQuery.Proofs.Query.Moved
import MediaQuery.Proofs.Query.Resumed

/-!
# Texts behind others — what stands in front, and what does not matter of it

The fragment of a problem ends where a clause does (`IsClauseEnd`), and this place moves with the
text. So a problem in a part of a text is a problem of the text, so many bytes later
(`locate_of_part`).

A text that ends in a separator and takes the walk to a phase that holds no token is a `LeadIn`:
whatever stands behind it is read as the walk from that phase reads it alone, and where the walk
stops, it is refused as it is alone, so many bytes later.
-/

namespace MediaQuery

/-! ## Ends of clauses -/

/-- The first token behind `t` that ends a clause starts at the byte offset. -/
def IsClauseEnd (tokens : List Token) (t : Token) (n : Nat) : Prop :=
  ∃ front u back, tokens = front ++ u :: back ∧ u.kind.endsClause = true ∧
    t.span.stop ≤ u.span.start ∧ u.span.start = n ∧
      ∀ v ∈ front, t.span.stop ≤ v.span.start → v.kind.endsClause = false

namespace IsClauseEnd

variable {ts us us' : List Token} {t last last' : Token} {n : Nat}

theorem clauseEnd_eq (h : IsClauseEnd ts t n) (input : String) : clauseEnd input ts t = n := by
  obtain ⟨front, u, back, rfl, hends, hbehind, hu, hfront⟩ := h
  have hfind : (front ++ u :: back).find?
      (fun u => t.span.stop ≤ u.span.start && u.kind.endsClause) = some u := by
    rw [List.find?_eq_some_iff_append]
    refine ⟨?_, front, back, rfl, ?_⟩
    · rw [Bool.and_eq_true, decide_eq_true_eq]
      exact ⟨hbehind, hends⟩
    · intro v hv
      rw [Bool.not_eq_true', Bool.and_eq_false_iff, decide_eq_false_iff_not]
      by_cases hle : t.span.stop ≤ v.span.start
      · exact .inr (hfront v hv hle)
      · exact .inl hle
  rw [clauseEnd, hfind]
  exact hu

theorem shift (h : IsClauseEnd ts t n) (m : Nat) :
    IsClauseEnd (ts.map (Token.shift m)) (t.shift m) (m + n) := by
  obtain ⟨front, u, back, rfl, hends, hbehind, rfl, hfront⟩ := h
  refine ⟨front.map (Token.shift m), u.shift m, back.map (Token.shift m), ?_, hends, ?_, rfl, ?_⟩
  · rw [List.map_append, List.map_cons]
  · exact Nat.add_le_add_left hbehind m
  · rw [List.forall_mem_map]
    intro v hv hle
    exact hfront v hv (Nat.le_of_add_le_add_left hle)

/-- Tokens that start before the end of the token do not matter. -/
theorem append_left (h : IsClauseEnd us t n) (hts : ∀ v ∈ ts, v.span.start < t.span.stop) :
    IsClauseEnd (ts ++ us) t n := by
  obtain ⟨front, u, back, rfl, hends, hbehind, hu, hfront⟩ := h
  refine ⟨ts ++ front, u, back, (List.append_assoc ..).symm, hends, hbehind, hu, ?_⟩
  refine List.forall_mem_append.mpr ⟨?_, hfront⟩
  intro v hv hle
  exact absurd hle (Nat.not_le_of_lt (hts v hv))

/-- Tokens that start before the place to which the others are moved do not matter. -/
theorem behind (h : IsClauseEnd us t n) {m : Nat} (hts : ∀ v ∈ ts, v.span.start < m) :
    IsClauseEnd (ts ++ us.map (Token.shift m)) (t.shift m) (m + n) :=
  (h.shift m).append_left fun v hv => Nat.lt_of_lt_of_le (hts v hv) (Nat.le_add_right m _)

/-- One token that ends a clause may stand for another at the same place, whatever follows. -/
theorem replace (h : IsClauseEnd (ts ++ last :: us) t n) (hbehind : t.span.stop ≤ last.span.start)
    (hends : last.kind.endsClause = true) (hends' : last'.kind.endsClause = true)
    (hstart : last'.span.start = last.span.start) : IsClauseEnd (ts ++ last' :: us') t n := by
  obtain ⟨front, u, back, heq, hu, hle, rfl, hfront⟩ := h
  rcases List.append_eq_append_iff.mp heq with ⟨more, rfl, hmore⟩ | ⟨more, rfl, hmore⟩
  · cases more with
    | nil =>
      obtain ⟨rfl, -⟩ := List.cons.inj hmore
      rw [List.append_nil] at hfront
      exact ⟨ts, last', us', rfl, hends', hstart ▸ hbehind, hstart, hfront⟩
    | cons v more =>
      -- then a token before the first that ends the clause would end it
      obtain ⟨rfl, -⟩ := List.cons.inj hmore
      have hlast := hfront last (List.mem_append_right ts List.mem_cons_self) hbehind
      rw [hends] at hlast
      cases hlast
  · cases more with
    | nil =>
      obtain ⟨rfl, -⟩ := List.cons.inj hmore
      rw [List.append_nil]
      exact ⟨front, last', us', rfl, hends', hstart ▸ hbehind, hstart, hfront⟩
    | cons v more =>
      obtain ⟨rfl, -⟩ := List.cons.inj hmore
      exact ⟨front, u, more ++ last' :: us', by rw [List.append_assoc, List.cons_append], hu, hle,
        rfl, hfront⟩

end IsClauseEnd

/-- The clause of every token of a text has an end. -/
theorem exists_isClauseEnd {input : String} {t : Token} (h : t ∈ tokenize input) :
    ∃ n, IsClauseEnd (tokenize input) t n := by
  have hbehind : t.span.stop ≤ byteLength input.toList := (fits_of_mem_tokenize h).within
  have hsome : ((tokenize input).find?
      (fun u => t.span.stop ≤ u.span.start && u.kind.endsClause)).isSome = true := by
    rw [List.find?_isSome]
    refine ⟨_, mem_tokenize_iff.mpr (.inr rfl), ?_⟩
    rw [Bool.and_eq_true, decide_eq_true_eq]
    exact ⟨hbehind, rfl⟩
  obtain ⟨u, hu⟩ := Option.isSome_iff_exists.mp hsome
  obtain ⟨hends, front, back, htokens, hfront⟩ := List.find?_eq_some_iff_append.mp hu
  rw [Bool.and_eq_true, decide_eq_true_eq] at hends
  refine ⟨u.span.start, front, u, back, htokens, hends.2, hends.1, rfl, ?_⟩
  intro v hv hle
  have hv := hfront v hv
  rw [Bool.not_eq_true', Bool.and_eq_false_iff, decide_eq_false_iff_not] at hv
  exact hv.resolve_left (not_not_intro hle)

/-- **A problem in a part of a text is a problem of the text**, so many bytes later, where its
clause ends at the same place. -/
theorem locate_of_part {input part : String} {n stop m : Nat} {tokens tokens' : List Token}
    {t : Token} {problem : Problem} {e : SyntaxError} (hpart : IsPart input n stop part)
    (hend : IsClauseEnd tokens t m) (hend' : IsClauseEnd tokens' (t.shift n) (n + m))
    (he : locate part tokens t problem = .syntaxError e) :
    locate input tokens' (t.shift n) problem =
      .syntaxError { e with position := n + e.position } := by
  have hspan : (⟨n + t.span.start, max (n + m) (n + t.span.start)⟩ : Span) =
      ⟨n + t.span.start, n + max m t.span.start⟩ := by
    rw [Nat.add_max_add_left]
  simp only [locate, hend.clauseEnd_eq] at he
  split at he
  · next text htext =>
    cases he
    have htext' : IsPart part t.span.start (max m t.span.start) (String.ofList text) :=
      isPart_ofList_iff.mpr htext
    have hslice := isPart_ofList_iff.mp (hpart.trans htext')
    simp only [locate, hend'.clauseEnd_eq]
    simp only [Token.shift, hspan, hslice]
  · cases he

/-! ## Lead-ins -/

/-- The text completes the queries, and leaves what stands behind it to be read from the phase. -/
structure LeadIn (ahead : String) (l : QueryList) (phase : Phase) : Prop where
  apart : EndsApart ahead
  leads : Leads ahead .clauseStart (scan 0 ahead.toList) l phase
  /-- the phase holds no token, whose place would be another in a longer text -/
  still : ∀ n, phase.respell .same (Token.shift n) = phase

/-- Where a text is read, its walk has completed the list. -/
theorem walk_of_parse {input : String} {t : Token} {ts : List Token} {l : QueryList}
    (htokens : tokenize input = t :: ts) (h : parse input = .ok l) :
    walk input t ts .clauseStart = ⟨l, none⟩ := by
  rw [parse, Reading.ofText, htokens, Reading.ofTokens] at h
  exact walk_of_ok h

/-- Where a text is refused, its walk has stopped for the problem, at a token of the text. -/
theorem exists_walk_of_parse {input : String} {t : Token} {ts : List Token} {e : SyntaxError}
    (htokens : tokenize input = t :: ts) (h : parse input = .error (.syntaxError e)) :
    ∃ clauses, ∃ shown ∈ tokenize input,
      walk input t ts .clauseStart = ⟨clauses, some (.problem shown e.problem)⟩ ∧
        locate input (tokenize input) shown e.problem = .syntaxError e := by
  rcases parse_cases input with ⟨l, hok⟩ |
    ⟨front, u, back, l, last, shown, problem, e', heq, hleads, hs, he, herror⟩
  · rw [hok] at h
    cases h
  · rw [herror] at h
    cases h
    obtain rfl := (eq_of_locate he).2
    obtain ⟨t', ts', hcons, hwalk⟩ := hleads.exists_walk u back
    obtain ⟨rfl, rfl⟩ := List.cons.inj (htokens.symm.trans (heq.trans hcons))
    rw [walk_of_stop hs] at hwalk
    exact ⟨_, shown, hleads.mem_of_shows heq (shows_of_step hs), hwalk, he⟩

/-- In a longer text, a text that is read leads to where its list is complete. -/
theorem exists_leads_append {a : String} {l : QueryList} (h : parse a = .ok l) (more : String) :
    ∃ front phase last, l = front ++ [last] ∧
      Leads (a ++ more) .clauseStart (scan 0 a.toList) front phase ∧
        step (a ++ more) phase (.endAt (byteLength a.toList)) = .finish last := by
  obtain ⟨front, phase, last, hleads, hs, rfl⟩ := parse_eq_ok_iff_leads_scan.mp h
  have hleads' := (mirrors_shift (isPart_append_left a more)).leads hleads
  have hs' := (mirrors_shift (isPart_append_left a more)).finish hs
  rw [map_shift_zero, map_respell_same] at hleads'
  rw [Token.shift_zero, last.respell_same] at hs'
  exact ⟨front, _, last, rfl, hleads', hs'⟩

namespace LeadIn

variable {ahead s : String} {l clauses : QueryList} {phase : Phase} {t shown : Token}
  {ts : List Token} {problem : Problem} {e : SyntaxError}

/-- **Behind a lead-in, the walk begins in its phase**, and is that of the text alone. -/
theorem reading_append (h : LeadIn ahead l phase) (htokens : tokenize s = t :: ts)
    (hrange : (walk s t ts phase).InRange) :
    Reading.ofText (ahead ++ s) = Reading.ofWalk (ahead ++ s) (tokenize (ahead ++ s))
      ⟨l ++ (walk s t ts phase).clauses, (walk s t ts phase).stop.map
        (Stop.respell .same (Token.shift (byteLength ahead.toList)))⟩ := by
  have hleads := (mirrors_shift (isPart_append_left ahead s)).leads h.leads
  have hwalk := (mirrors_shift (isPart_append_right ahead s)).walk hrange
  -- where the path ends and the walk begins, the phase is its own image in either move
  rw [map_shift_zero, map_respell_same, h.still] at hleads
  rw [h.still, Walk.respell, map_respell_same] at hwalk
  have hsplit := h.apart.tokenize_append s
  rw [htokens, List.map_cons] at hsplit
  rw [reading_of_leads hsplit hleads, hwalk]

theorem parse_append (h : LeadIn ahead l phase) (htokens : tokenize s = t :: ts)
    (hwalk : walk s t ts phase = ⟨clauses, none⟩) : parse (ahead ++ s) = .ok (l ++ clauses) := by
  have hreading := h.reading_append htokens (by rw [hwalk]; rintro span ⟨⟩)
  rw [hwalk] at hreading
  rw [parse, hreading]
  rfl

theorem parse_append_error (h : LeadIn ahead l phase) (htokens : tokenize s = t :: ts)
    (hwalk : walk s t ts phase = ⟨clauses, some (.problem shown problem)⟩)
    (hshown : shown ∈ tokenize s)
    (he : locate s (tokenize s) shown problem = .syntaxError e) :
    parse (ahead ++ s) = .error
      (.syntaxError ⟨byteLength ahead.toList + e.position, e.fragment, e.problem⟩) := by
  have hreading := h.reading_append htokens (by rw [hwalk]; rintro span ⟨⟩)
  obtain ⟨n, hend⟩ := exists_isClauseEnd hshown
  have hend' : IsClauseEnd (tokenize (ahead ++ s)) (shown.shift (byteLength ahead.toList))
      (byteLength ahead.toList + n) := by
    rw [h.apart.tokenize_append]
    refine hend.behind fun v hv => ?_
    have hbounds := bounds_of_mem_scan hv
    omega
  have hlocate := locate_of_part (isPart_append_right ahead s) hend hend' he
  rw [hwalk] at hreading
  rw [parse, hreading]
  simp only [Reading.ofWalk, Reading.result, Option.map_some, Stop.respell,
    problem.respell_same, hlocate]

/-- A text is refused behind a lead-in at its first token, if this stops the walk there. -/
theorem exists_parse_append_of_stop (h : LeadIn ahead l phase) (htokens : tokenize s = t :: ts)
    (hs : step s phase t = .stop (.problem t problem)) :
    ∃ e, parse (ahead ++ s) = .error (.syntaxError e) ∧
      e.position = byteLength ahead.toList + t.span.start ∧ e.problem = problem := by
  have hmem : t ∈ tokenize s := htokens ▸ List.mem_cons_self
  obtain ⟨e, he⟩ := exists_locate hmem problem
  obtain ⟨hposition, hproblem⟩ := eq_of_locate he
  exact ⟨_, h.parse_append_error htokens (walk_of_stop hs ts) hmem he,
    congrArg _ hposition, hproblem⟩

section MapFirst

variable {g : Query → Query} {q : Query} {r : QueryList} (h : LeadIn ahead l phase)
  (htokens : tokenize s = t :: ts)
  (hwalk : walk s t ts phase = (walk s t ts .clauseStart).mapFirst g)

include h htokens hwalk

/-- Where a lead-in makes another query of the first, a text that is read is read behind it. -/
theorem parse_append_mapFirst (hs : parse s = .ok (q :: r)) :
    parse (ahead ++ s) = .ok (l ++ g q :: r) := by
  refine h.parse_append htokens ?_
  rw [hwalk, walk_of_parse htokens hs]
  rfl

/-- And one that is refused is refused there for the same error. -/
theorem parse_append_mapFirst_error (hs : parse s = .error (.syntaxError e)) :
    parse (ahead ++ s) = .error
      (.syntaxError ⟨byteLength ahead.toList + e.position, e.fragment, e.problem⟩) := by
  obtain ⟨clauses, shown, hshown, hstart, he⟩ := exists_walk_of_parse htokens hs
  have hbehind : walk s t ts phase =
      ⟨clauses.modifyHead g, some (.problem shown e.problem)⟩ := by
    rw [hwalk, hstart]
    rfl
  exact h.parse_append_error htokens hbehind hshown he

end MapFirst

end LeadIn

end MediaQuery
