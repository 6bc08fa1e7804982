import Mathlib
import MediaQuery.Proofs.Query.FirstFault
import MediaQuery.Query.Event

/-!
# Reported clauses — what reading reports, and the text that it has read

A walk reports a clause at the comma that ends it, so it has reported as many clauses as it has
passed commas (`Leads.length_eq_count`). A problem is placed at a token behind the last of them
(`Leads.exists_front_of_shows`), so the commas ahead of a syntax error count the clauses that are
reported. And what has been reported at a comma is what the text ahead of it is read as: its end
completes the clause that the comma completes (`exists_cut_of_next`).
-/

namespace MediaQuery

/-! ## Clauses and commas -/

section Path

variable {input : String} {phase last : Phase} {ts : List Token} {l : QueryList}

/-- A path completes one clause at each comma. -/
theorem Leads.length_eq_count (h : Leads input phase ts l last) :
    l.length = (ts.map Token.kind).count .comma := by
  induction h with
  | stay => rfl
  | @shift _ _ _ t _ _ hs _ ih =>
    have ht : t.kind ≠ .comma := by
      intro hcomma
      have hkind := endsClause_of_shift hs
      rw [hcomma] at hkind
      cases hkind
    rw [List.map_cons, List.count_cons_of_ne ht, ih]
  | next hs _ ih =>
    rw [List.map_cons, kind_of_next hs, List.count_cons_self, List.length_cons, ih]

/-- Where a path has completed clauses, it has gone on from the comma behind the last of them. -/
theorem Leads.exists_last_next (h : Leads input phase ts l last) (hne : l ≠ []) :
    ∃ front comma back l' middle q, ts = front ++ comma :: back ∧
      Leads input phase front l' middle ∧ step input middle comma = .next q ∧ l = l' ++ [q] := by
  induction h with
  | stay => exact absurd rfl hne
  | @shift _ _ _ t _ _ hs _ ih =>
    obtain ⟨front, comma, back, l', middle, q, rfl, hfront, hnext, rfl⟩ := ih hne
    exact ⟨t :: front, comma, back, l', middle, q, rfl, .shift hs hfront, hnext, rfl⟩
  | @next _ _ t ts q l hs _ ih =>
    by_cases hl : l = []
    · subst hl
      exact ⟨[], t, ts, [], _, q, rfl, .stay, hs, rfl⟩
    · obtain ⟨front, comma, back, l', middle, q', rfl, hfront, hnext, rfl⟩ := ih hl
      exact ⟨t :: front, comma, back, q :: l', middle, q', rfl, .next hs hfront, hnext, rfl⟩

end Path

theorem count_comma_scan_of_not_mem {cs : List Char} (h : ',' ∉ cs) :
    ((scan 0 cs).map Token.kind).count .comma = 0 := by
  rw [List.count_eq_zero]
  intro hmem
  obtain ⟨t, ht, hcomma⟩ := List.mem_map.mp hmem
  exact h (mem_of_mem_scan_comma ht hcomma)

/-- A text has a comma token for each of its commas. -/
theorem count_comma_scan (cs : List Char) :
    ((scan 0 cs).map Token.kind).count .comma = cs.count ',' := by
  induction cs using comma_induction with
  | last cs hcs => rw [List.count_eq_zero_of_not_mem hcs, count_comma_scan_of_not_mem hcs]
  | more cs rest hcs ih =>
    have hmoved (n : Nat) : ((scan 0 rest).map (Token.shift n)).map Token.kind =
        (scan 0 rest).map Token.kind := by
      rw [List.map_map]
      rfl
    rw [scan_comma, List.map_append, List.map_cons, hmoved, Token.ofWord, List.count_append,
      List.count_append, List.count_cons_self, List.count_cons_self, ih,
      count_comma_scan_of_not_mem hcs, List.count_eq_zero_of_not_mem hcs]

/-! ## The text ahead of a comma -/

section Cut

variable {input : String} {xs ys : List Token} {comma : Token} {l : QueryList} {phase : Phase}
  {q : Query}

/-- A text has a comma where it has a comma token. -/
theorem exists_cut_of_comma (htokens : tokenize input = xs ++ comma :: ys)
    (hcomma : comma.kind = .comma) :
    ∃ cut rest, input.toList = cut ++ ',' :: rest ∧ scan 0 cut = xs := by
  obtain ⟨us, hus⟩ : ∃ us, scan 0 input.toList = xs ++ comma :: us := by
    rcases List.eq_nil_or_concat ys with rfl | ⟨us, last, rfl⟩
    · obtain ⟨-, hend⟩ := List.append_inj' htokens rfl
      rw [← (List.cons.inj hend).1] at hcomma
      cases hcomma
    · rw [List.concat_eq_append, ← List.cons_append, ← List.append_assoc] at htokens
      exact ⟨us, (List.append_inj' htokens rfl).1⟩
  obtain ⟨cut, word, rest, htext, hscan, hlex, -⟩ := exists_front_of_scan hus
  rw [hcomma] at hlex
  obtain rfl : word = [','] := hlex.admits
  exact ⟨cut, rest, htext, hscan⟩

/-- **The text ahead of a comma is read as the clauses that are complete there.** -/
theorem exists_cut_of_next (htokens : tokenize input = xs ++ comma :: ys)
    (hleads : Leads input .clauseStart xs l phase) (hs : step input phase comma = .next q) :
    ∃ cut rest, input.toList = cut ++ ',' :: rest ∧ scan 0 cut = xs ∧
      parse (String.ofList cut) = .ok (l ++ [q]) := by
  have hcomma : comma.kind = .comma := kind_of_next hs
  obtain ⟨cut, rest, htext, rfl⟩ := exists_cut_of_comma htokens hcomma
  refine ⟨cut, rest, htext, rfl, ?_⟩
  have hend : step input phase (Token.endAt (byteLength cut)) = .finish q :=
    finish_of_next hs rfl
  -- kinds and texts say that the cut text is read, though not which parts of it are kept
  have hcompletes : Completes .clauseStart (tokenize (String.ofList cut)) := by
    rw [tokenize, String.toList_ofList]
    exact ⟨scan 0 cut, _, [], _, _, _, rfl, hleads.outline, finish_outline hend⟩
  obtain ⟨l', hl'⟩ := exists_parse_iff_completes.mpr hcompletes
  have hinput : String.ofList cut ++ String.ofList (',' :: rest) = input := by
    rw [← String.toList_inj, String.toList_append, String.toList_ofList, String.toList_ofList,
      htext]
  obtain ⟨front, phase', last, rfl, hcut, hfinish⟩ :=
    exists_leads_append hl' (String.ofList (',' :: rest))
  rw [hinput, String.toList_ofList] at hcut hfinish
  obtain ⟨rfl, rfl⟩ := hcut.unique hleads
  rw [hend] at hfinish
  cases hfinish
  exact hl'

end Cut

/-! ## Events -/

variable {input : String} {l : QueryList}

theorem reading_of_ok (h : parse input = .ok l) : Reading.ofText input = ⟨l, none⟩ := by
  rw [parse] at h
  cases hreading : Reading.ofText input with
  | mk clauses failure =>
    rw [hreading] at h
    cases failure with
    | none =>
      cases h
      rfl
    | some failure => cases h

/-- A refused text has a token at the place of the error, and the clauses ahead of that token are
those that reading has completed. -/
theorem exists_leads_of_refused {failure : Failure} (h : parse input = .error failure) :
    ∃ e front shown back clauses phase, failure = .syntaxError e ∧
      tokenize input = front ++ shown :: back ∧ e.position = shown.span.start ∧
        Leads input .clauseStart front clauses phase ∧
          Reading.ofText input = ⟨clauses, some (.syntaxError e)⟩ := by
  rcases parse_cases input with ⟨l, hok⟩ |
    ⟨before, t, after, clauses, last, shown, problem, e, htokens, hleads, hs, he, herror⟩
  · rw [hok] at h
    cases h
  · rw [herror] at h
    cases h
    obtain ⟨front, back, phase, heq, -, hfront⟩ :=
      hleads.exists_front_of_shows (shows_of_step hs) after
    refine ⟨e, front, shown, back, clauses, phase, rfl, htokens.trans heq, (eq_of_locate he).1,
      hfront, ?_⟩
    rw [reading_of_stop htokens hleads hs]
    simp only [Reading.ofWalk, Option.map_some, he]

/-- The clauses are traced and the outcome is for debugging. -/
theorem map_level_events {outcome : Event} (h : outcome.level = .debug) (l : QueryList) :
    (l.map Event.ofQuery ++ [outcome]).map Event.level =
      List.replicate l.length .trace ++ [.debug] := by
  have htraced : (l.map Event.ofQuery).map Event.level = List.replicate l.length .trace := by
    rw [List.map_map]
    exact List.map_const
  rw [List.map_append, htraced, List.map_singleton, h]

/-- **What is reported is what was read.** A text that is read reports its queries in order, and
then their number. A text that is refused reports one clause for each comma ahead of the error, and
then the error; and cut at the last of these commas, the text is read as just the clauses that were
reported. -/
theorem parse_events (input : String) :
    (∀ l, parse input = .ok l →
      events input = l.map Event.ofQuery ++ [Event.listRead l.length] ∧
        (events input).map Event.level = List.replicate l.length Level.trace ++ [.debug]) ∧
    ∀ failure, parse input = .error failure → ∃ e front back clauses,
      failure = .syntaxError e ∧ input.toList = front ++ back ∧ byteLength front = e.position ∧
        clauses.length = front.count ',' ∧
        events input = clauses.map Event.ofQuery ++ [Event.listRefused e.position e.message] ∧
        (events input).map Event.level = List.replicate clauses.length Level.trace ++ [.debug] ∧
        (0 < clauses.length → ∃ cut rest, input.toList = cut ++ ',' :: rest ∧
          cut.count ',' + 1 = clauses.length ∧ parse (String.ofList cut) = .ok clauses) := by
  constructor
  · intro l h
    have hevents : events input = l.map Event.ofQuery ++ [.listRead l.length] := by
      rw [events, reading_of_ok h]
      rfl
    exact ⟨hevents, by rw [hevents, map_level_events rfl]⟩
  · intro failure h
    obtain ⟨e, xs, shown, ys, clauses, phase, rfl, htokens, hposition, hleads, hreading⟩ :=
      exists_leads_of_refused h
    obtain ⟨front, back, htext, rfl, hfront⟩ := exists_front_of_tokenize htokens
    have hevents : events input =
        clauses.map Event.ofQuery ++ [.listRefused e.position e.message] := by
      rw [events, hreading]
      rfl
    refine ⟨e, front, back, clauses, rfl, htext, hfront.trans hposition.symm, ?_, hevents, ?_, ?_⟩
    · rw [hleads.length_eq_count, count_comma_scan]
    · rw [hevents, map_level_events rfl]
    · intro hsome
      obtain ⟨before, comma, behind, l', middle, q, hsplit, hbefore, hnext, rfl⟩ :=
        hleads.exists_last_next (List.ne_nil_of_length_pos hsome)
      rw [hsplit, List.append_assoc, List.cons_append] at htokens
      obtain ⟨cut, rest, hcut, rfl, hparse⟩ := exists_cut_of_next htokens hbefore hnext
      refine ⟨cut, rest, hcut, ?_, hparse⟩
      rw [List.length_append, List.length_singleton, hbefore.length_eq_count, count_comma_scan]

/-- Two clauses are reported, and two are reported ahead of a comma that is at fault, where the text
is read up to the comma before. -/
theorem parse_events_comma :
    events "tv,(color)" = [.clauseRead "tv" 0, .clauseRead "all" 1, .listRead 2] ∧
    ∃ cut rest clauses, "tv,(color),,x".toList = cut ++ ',' :: rest ∧ cut.count ',' = 1 ∧
      parse (String.ofList cut) = .ok clauses ∧
        clauses.map Event.ofQuery = [.clauseRead "tv" 0, .clauseRead "all" 1] := by
  have hok : parse "tv,(color)" =
      .ok [{ mediaType := "tv" }, ⟨false, "", "all", "", [⟨none, "color", none⟩]⟩] := by
    cbv
  have hreading : Reading.ofText "tv,(color),,x" =
      ⟨[{ mediaType := "tv" }, ⟨false, "", "all", "", [⟨none, "color", none⟩]⟩],
        some (.syntaxError ⟨11, ",x", .unexpected .mediaTypeOrParen (.text ",")⟩)⟩ := by
    cbv
  have herror : parse "tv,(color),,x" =
      .error (.syntaxError ⟨11, ",x", .unexpected .mediaTypeOrParen (.text ",")⟩) := by
    rw [parse, hreading, Reading.result]
  obtain ⟨e, front, back, clauses, -, -, -, -, hevents, -, hcut⟩ :=
    (parse_events "tv,(color),,x").2 _ herror
  rw [events, hreading] at hevents
  obtain ⟨hclauses, -⟩ := List.append_inj' hevents.symm rfl
  have hlength : clauses.length = 2 := by
    rw [← List.length_map Event.ofQuery, hclauses]
    rfl
  obtain ⟨cut, rest, htext, hcount, hparse⟩ := hcut (by omega)
  obtain ⟨hevents', -⟩ := (parse_events "tv,(color)").1 _ hok
  refine ⟨?_, cut, rest, clauses, htext, by omega, hparse, hclauses⟩
  rw [hevents']
  rfl

end MediaQuery
