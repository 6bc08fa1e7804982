import MediaQuery.Proofs.Query.Exact
import MediaQuery.Query.Step

/-!
# Paths — the walk from one phase to another

`Leads` is the walk as far as it goes: it takes some tokens one by one from a phase to a phase, and
completes queries on the way. Where the tokens have an end, the walk follows such a path up to a
token at which the list is complete or which stops it (`exists_leads`), and what reading comes to is
read off there (`parse_eq_ok_iff_leads`, `reading_of_stop`). No path takes the end itself
(`Leads.kind_ne_eof`), so there is always a token to look at.
-/

namespace MediaQuery

variable {input : String}

/-- The walk takes the tokens from one phase to another, and completes the queries. -/
inductive Leads (input : String) : Phase → List Token → QueryList → Phase → Prop where
  | stay {phase : Phase} : Leads input phase [] [] phase
  | shift {phase phase' last : Phase} {t : Token} {ts : List Token} {l : QueryList} :
      step input phase t = .shift phase' → Leads input phase' ts l last →
        Leads input phase (t :: ts) l last
  | next {phase last : Phase} {t : Token} {ts : List Token} {q : Query} {l : QueryList} :
      step input phase t = .next q → Leads input .clauseStart ts l last →
        Leads input phase (t :: ts) (q :: l) last

namespace Leads

variable {phase middle last : Phase} {ts us : List Token} {l l' : QueryList}

theorem append (h : Leads input phase ts l middle) (h' : Leads input middle us l' last) :
    Leads input phase (ts ++ us) (l ++ l') last := by
  induction h with
  | stay => exact h'
  | shift hs _ ih => exact .shift hs (ih h')
  | next hs _ ih => exact .next hs (ih h')

/-- A path through two lists of tokens is a path through each. -/
theorem exists_of_append (h : Leads input phase (ts ++ us) l last) :
    ∃ l₁ l₂ middle, Leads input phase ts l₁ middle ∧ Leads input middle us l₂ last ∧
      l = l₁ ++ l₂ := by
  induction ts generalizing phase l with
  | nil => exact ⟨[], l, phase, .stay, h, rfl⟩
  | cons t ts ih =>
    cases h with
    | shift hs hrest =>
      obtain ⟨l₁, l₂, middle, h₁, h₂, rfl⟩ := ih hrest
      exact ⟨l₁, l₂, middle, .shift hs h₁, h₂, rfl⟩
    | next hs hrest =>
      obtain ⟨l₁, l₂, middle, h₁, h₂, rfl⟩ := ih hrest
      exact ⟨_, l₂, middle, .next hs h₁, h₂, rfl⟩

/-- There is one path through a list of tokens. -/
theorem unique {last' : Phase} (h : Leads input phase ts l last)
    (h' : Leads input phase ts l' last') : l = l' ∧ last = last' := by
  induction h generalizing l' with
  | stay =>
    cases h'
    exact ⟨rfl, rfl⟩
  | shift hs _ ih =>
    cases h' with
    | shift hs' hrest =>
      cases hs.symm.trans hs'
      exact ih hrest
    | next hs' => cases hs.symm.trans hs'
  | next hs _ ih =>
    cases h' with
    | shift hs' => cases hs.symm.trans hs'
    | next hs' hrest =>
      cases hs.symm.trans hs'
      obtain ⟨rfl, rfl⟩ := ih hrest
      exact ⟨rfl, rfl⟩

/-- No path takes the end of a text. -/
theorem kind_ne_eof (h : Leads input phase ts l last) : ∀ t ∈ ts, t.kind ≠ .eof := by
  induction h with
  | stay =>
    intro t ht
    cases ht
  | shift hs _ ih =>
    refine List.forall_mem_cons.mpr ⟨?_, ih⟩
    intro heof
    have hkind := endsClause_of_shift hs
    rw [heof] at hkind
    cases hkind
  | next hs _ ih =>
    refine List.forall_mem_cons.mpr ⟨?_, ih⟩
    rw [kind_of_next hs]
    decide

/-- What a path has come to is reached from the beginning of the last clause. -/
theorem exists_reached {done : List Token} (h : Leads input phase ts l last)
    (hreached : Reached input phase done) :
    ∃ before now, done ++ ts = before ++ now ∧ Reached input last now := by
  induction h generalizing done with
  | stay => exact ⟨[], done, List.append_nil done, hreached⟩
  | @shift phase phase' last t ts l hs _ ih =>
    obtain ⟨before, now, heq, hnow⟩ := ih (hreached.shift hs)
    rw [List.append_assoc] at heq
    exact ⟨before, now, heq, hnow⟩
  | @next phase last t ts q l hs _ ih =>
    obtain ⟨before, now, heq, hnow⟩ := ih .clauseStart
    refine ⟨done ++ t :: before, now, ?_, hnow⟩
    rw [List.append_assoc, List.cons_append, ← heq, List.nil_append]

/-- The token that a problem is placed at is the one that shows it, or so many before it. -/
theorem exists_shown {t shown : Token} {problem : Problem}
    (h : Leads input .clauseStart ts l phase) (hshows : Shows phase t shown problem) :
    ∃ front back, ts ++ [t] = front ++ shown :: back ∧ back.length = problem.delay := by
  obtain ⟨before, now, heq, hreached⟩ := h.exists_reached .clauseStart
  rw [List.nil_append] at heq
  cases hshows with
  | unexpected => exact ⟨ts, [], rfl, rfl⟩
  | fault hfault =>
    cases hfault with
    | missingValue =>
      cases hreached with
      | @afterName front =>
        refine ⟨before ++ front, [t], ?_, rfl⟩
        rw [heq, List.append_assoc, List.append_assoc, List.append_assoc]
        rfl
    | @numeratorUnit q name number =>
      cases hreached with
      | @afterNumber front _ colon =>
        refine ⟨before ++ (front ++ [name, colon]), [t], ?_, rfl⟩
        rw [heq]
        simp only [List.append_assoc, List.cons_append, List.nil_append]
    | denominatorUnit => exact ⟨ts, [], rfl, rfl⟩

/-- A path that does not end at the beginning of a clause completes none with its last token. -/
theorem exists_init {t : Token} (h : Leads input phase (ts ++ [t]) l last)
    (hlast : last ≠ .clauseStart) : ∃ middle, Leads input phase ts l middle := by
  obtain ⟨l₁, l₂, middle, hinit, hend, rfl⟩ := h.exists_of_append
  cases hend with
  | shift _ hstay =>
    cases hstay
    rw [List.append_nil]
    exact ⟨middle, hinit⟩
  | next _ hstay =>
    cases hstay
    exact absurd rfl hlast

/-- All clauses that are complete where a problem is seen are complete ahead of the token that it is
placed at. -/
theorem exists_front_of_shows {t shown : Token} {problem : Problem}
    (h : Leads input .clauseStart ts l last) (hshows : Shows last t shown problem)
    (back : List Token) : ∃ front rest middle, ts ++ t :: back = front ++ shown :: rest ∧
      ts.length = front.length + problem.delay ∧ Leads input .clauseStart front l middle := by
  obtain ⟨front, seen, heq, hlength⟩ := h.exists_shown hshows
  have hdelayed (hdelay : problem.delay = 1) (hlast : last ≠ .clauseStart) :
      ∃ front rest middle, ts ++ t :: back = front ++ shown :: rest ∧
        ts.length = front.length + problem.delay ∧ Leads input .clauseStart front l middle := by
    obtain ⟨u, rfl⟩ := List.length_eq_one_iff.mp (hlength.trans hdelay)
    rw [List.append_cons front shown] at heq
    obtain ⟨rfl, -⟩ := List.append_inj' heq rfl
    obtain ⟨middle, hfront⟩ := h.exists_init hlast
    refine ⟨front, t :: back, middle, (List.append_cons front shown _).symm, ?_, hfront⟩
    rw [hdelay, List.length_append, List.length_singleton]
  cases hshows with
  | unexpected => exact ⟨ts, back, last, rfl, rfl, h⟩
  | fault hfault =>
    cases hfault with
    | denominatorUnit => exact ⟨ts, back, _, rfl, rfl, h⟩
    | missingValue => exact hdelayed rfl (by rintro ⟨⟩)
    | numeratorUnit => exact hdelayed rfl (by rintro ⟨⟩)

end Leads

/-! ## Walks along paths -/

/-- A run is a path up to a token at which the list is complete. -/
theorem reads_iff_leads {phase : Phase} {tokens : List Token} {l : QueryList} :
    Reads input phase tokens l ↔
      ∃ front t back l' last q, tokens = front ++ t :: back ∧ Leads input phase front l' last ∧
        step input last t = .finish q ∧ l = l' ++ [q] := by
  constructor
  · intro h
    induction h with
    | shift hs _ ih =>
      obtain ⟨front, u, back, l', last, q, rfl, hleads, hu, rfl⟩ := ih
      exact ⟨_ :: front, u, back, l', last, q, rfl, .shift hs hleads, hu, rfl⟩
    | next hs _ ih =>
      obtain ⟨front, u, back, l', last, q, rfl, hleads, hu, rfl⟩ := ih
      exact ⟨_ :: front, u, back, _ :: l', last, q, rfl, .next hs hleads, hu, rfl⟩
    | finish hs => exact ⟨[], _, _, [], _, _, rfl, .stay, hs, rfl⟩
  · rintro ⟨front, t, back, l', last, q, rfl, hleads, hs, rfl⟩
    induction hleads with
    | stay => exact .finish hs
    | shift hs' _ ih => exact .shift hs' (ih hs)
    | next hs' _ ih => exact .next hs' (ih hs)

/-- A walk goes on behind a path as it would from there, with the clauses of the path completed. -/
theorem Leads.exists_walk {phase last : Phase} {front : List Token} {l : QueryList}
    (h : Leads input phase front l last) (t : Token) (back : List Token) :
    ∃ u us, front ++ t :: back = u :: us ∧ walk input u us phase =
      ⟨l ++ (walk input t back last).clauses, (walk input t back last).stop⟩ := by
  induction h with
  | stay => exact ⟨t, back, rfl, rfl⟩
  | shift hs _ ih =>
    obtain ⟨u, us, heq, hwalk⟩ := ih
    refine ⟨_, _, List.cons_append, ?_⟩
    rw [heq]
    simp only [walk, hs, Move.carry, hwalk]
  | next hs _ ih =>
    obtain ⟨u, us, heq, hwalk⟩ := ih
    refine ⟨_, _, List.cons_append, ?_⟩
    rw [heq]
    simp only [walk, hs, Move.carry, hwalk, List.cons_append]

theorem walk_of_stop {phase : Phase} {t : Token} {why : Stop} (h : step input phase t = .stop why)
    (back : List Token) : walk input t back phase = ⟨[], some why⟩ := by
  cases back <;> simp only [walk, h, Move.carry]

/-- **Where the tokens have an end, the walk follows a path** to a token at which the list is
complete or which stops it. -/
theorem exists_leads (input : String) (phase : Phase) {tokens : List Token}
    (h : ∃ t ∈ tokens, t.kind = .eof) :
    ∃ front t back l last, tokens = front ++ t :: back ∧ Leads input phase front l last ∧
      ((∃ q, step input last t = .finish q) ∨ ∃ why, step input last t = .stop why) := by
  induction tokens generalizing phase with
  | nil =>
    obtain ⟨t, ht, -⟩ := h
    cases ht
  | cons t ts ih =>
    by_cases heof : t.kind = .eof
    · exact ⟨[], t, ts, [], phase, rfl, .stay, finish_or_stop_of_eof heof⟩
    · have hrest : ∃ u ∈ ts, u.kind = .eof := by
        obtain ⟨u, hu, hkind⟩ := h
        rcases List.mem_cons.mp hu with rfl | hu
        · exact absurd hkind heof
        · exact ⟨u, hu, hkind⟩
      cases hs : step input phase t with
      | shift phase' =>
        obtain ⟨front, u, back, l, last, rfl, hleads, hu⟩ := ih phase' hrest
        exact ⟨t :: front, u, back, l, last, rfl, .shift hs hleads, hu⟩
      | next q =>
        obtain ⟨front, u, back, l, last, rfl, hleads, hu⟩ := ih .clauseStart hrest
        exact ⟨t :: front, u, back, q :: l, last, rfl, .next hs hleads, hu⟩
      | finish q => exact ⟨[], t, ts, [], phase, rfl, .stay, .inl ⟨q, hs⟩⟩
      | stop why => exact ⟨[], t, ts, [], phase, rfl, .stay, .inr ⟨why, hs⟩⟩

theorem exists_eof_mem_tokenize (input : String) : ∃ t ∈ tokenize input, t.kind = .eof :=
  ⟨_, List.mem_append_right _ (List.mem_singleton_self _), rfl⟩

/-- A text has a first token, if only the one that marks its end. -/
theorem exists_cons_tokenize (input : String) : ∃ t ts, tokenize input = t :: ts :=
  List.exists_cons_of_ne_nil (List.append_ne_nil_of_right_ne_nil _ (List.cons_ne_nil _ _))

/-- Reading a text succeeds along a path to a token at which the list is complete. -/
theorem parse_eq_ok_iff_leads {l : QueryList} :
    parse input = .ok l ↔ ∃ front t back l' last q, tokenize input = front ++ t :: back ∧
      Leads input .clauseStart front l' last ∧ step input last t = .finish q ∧ l = l' ++ [q] :=
  parse_eq_ok_iff_reads.trans reads_iff_leads

/-- Reading a text succeeds along a path through all its tokens, up to its end. -/
theorem parse_eq_ok_iff_leads_scan {l : QueryList} :
    parse input = .ok l ↔ ∃ l' last q, Leads input .clauseStart (scan 0 input.toList) l' last ∧
      step input last (.endAt (byteLength input.toList)) = .finish q ∧ l = l' ++ [q] := by
  rw [parse_eq_ok_iff_leads]
  constructor
  · rintro ⟨front, t, back, l', last, q, htokens, hleads, hs, rfl⟩
    obtain rfl : front = scan 0 input.toList :=
      append_end_inj htokens (kind_of_finish hs) fun _ => kind_ne_eof_of_mem_scan
    obtain rfl := (List.cons.inj (List.append_cancel_left htokens)).1
    exact ⟨l', last, q, hleads, hs, rfl⟩
  · rintro ⟨l', last, q, hleads, hs, rfl⟩
    exact ⟨_, _, [], l', last, q, rfl, hleads, hs, rfl⟩

section Reading

variable {front back : List Token} {t : Token} {l : QueryList} {last : Phase}

/-- What reading comes to, where a path leads to a token. -/
theorem reading_of_leads (htokens : tokenize input = front ++ t :: back)
    (h : Leads input .clauseStart front l last) :
    Reading.ofText input = Reading.ofWalk input (tokenize input)
      ⟨l ++ (walk input t back last).clauses, (walk input t back last).stop⟩ := by
  obtain ⟨u, us, heq, hwalk⟩ := h.exists_walk t back
  rw [Reading.ofText, htokens, heq, Reading.ofTokens, hwalk]

/-- What reading comes to where a token stops the walk. -/
theorem reading_of_stop {why : Stop} (htokens : tokenize input = front ++ t :: back)
    (h : Leads input .clauseStart front l last) (hs : step input last t = .stop why) :
    Reading.ofText input = Reading.ofWalk input (tokenize input) ⟨l, some why⟩ := by
  rw [reading_of_leads htokens h, walk_of_stop hs, List.append_nil]

end Reading

end MediaQuery
