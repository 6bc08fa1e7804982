import Mathlib
import MediaQuery.Proofs.Query.InRange
import MediaQuery.Query.Walk

/-!
# Endless tokens — reading ends, and looks at nothing behind an end

A cursor stays at the last token of a list for ever, and no measure of the list says that its walk
ends there. It ends because no token is what the phase that it leads to needs: looked at twice, the
last token stops the walk (`walkWithin_eq`). And since a list is complete only at an end
(`afterList?_of_finish`), every stop is one that a token has shown (`exists_step_of_stop`), and none
is placed behind a complete list. A token that marks an end
completes the list or stops the walk, so the tokens behind it are not looked at (`walk_append_eof`);
only the fragment of a problem may reach over it.
-/

namespace MediaQuery

variable {input : String}

/-! ## A cursor comes to an end -/

/-- A look that stops the walk needs a limit of one. -/
theorem walkWithin_of_stop {look : Nat → Token} {limit steps : Nat} {phase : Phase} {why : Stop}
    (hlimit : 0 < limit) (h : step input phase (look steps) = .stop why) :
    walkWithin input look limit steps phase = some ⟨[], some why⟩ := by
  obtain ⟨limit, rfl⟩ := Nat.exists_eq_add_one.mpr hlimit
  simp only [walkWithin, h]

/-- **A cursor comes to an end**, as soon as it may look at each token and at the last one twice. -/
theorem walkWithin_eq {look : Nat → Token} {t : Token} {rest : List Token} {limit steps : Nat}
    (hlook : ∀ i, look (steps + i) = peek t rest i) (hlimit : rest.length + 1 < limit)
    (phase : Phase) : walkWithin input look limit steps phase = some (walk input t rest phase) := by
  induction rest generalizing t steps limit phase with
  | nil =>
    obtain ⟨limit, rfl⟩ := Nat.exists_eq_add_one.mpr (Nat.zero_lt_of_lt hlimit)
    have hpos : 0 < limit := Nat.lt_of_add_lt_add_right hlimit
    have hfirst : look steps = t := (hlook 0).trans (peek_zero t [])
    have hsecond : look (steps + 1) = t := (hlook 1).trans (peek_nil t 1)
    simp only [walkWithin, walk, hfirst]
    cases hs : step input phase t with
    | shift phase' =>
      obtain ⟨why, hwhy⟩ := exists_stop_of_shift hs
      simp only [Move.carry, walkOut_of_stop hwhy]
      exact walkWithin_of_stop hpos (hsecond ▸ hwhy)
    | next q =>
      obtain ⟨why, hwhy⟩ := exists_stop_of_next hs
      simp only [Move.carry, walkOut_of_stop hwhy]
      rw [walkWithin_of_stop hpos (hsecond ▸ hwhy), Option.map_some]
    | finish q => rfl
    | stop why => rfl
  | cons u rest ih =>
    obtain ⟨limit, rfl⟩ := Nat.exists_eq_add_one.mpr (Nat.zero_lt_of_lt hlimit)
    have hrest : rest.length + 1 < limit := Nat.lt_of_add_lt_add_right hlimit
    have hfirst : look steps = t := (hlook 0).trans (peek_zero t (u :: rest))
    have hlook' : ∀ i, look (steps + 1 + i) = peek u rest i := by
      intro i
      rw [Nat.add_assoc, Nat.add_comm 1, hlook, peek_succ]
    simp only [walkWithin, walk, hfirst]
    cases hs : step input phase t with
    | shift phase' => exact ih hlook' hrest phase'
    | next q =>
      simp only [Move.carry]
      rw [ih hlook' hrest .clauseStart, Option.map_some]
    | finish q => rfl
    | stop why => rfl

/-! ## Stops are shown by tokens -/

/-- Where a move ends in a stop, it is that stop or leads on to it. -/
theorem stop_of_carry {phase : Phase} {t : Token} {more : Phase → Walk} {why : Stop}
    (h : ((step input phase t).carry t more).stop = some why) :
    step input phase t = .stop why ∨
      (∃ phase', step input phase t = .shift phase' ∧ (more phase').stop = some why) ∨
      ∃ q, step input phase t = .next q ∧ (more .clauseStart).stop = some why := by
  cases hs : step input phase t with
  | shift phase' =>
    rw [hs] at h
    exact .inr (.inl ⟨phase', rfl, h⟩)
  | next q =>
    rw [hs] at h
    exact .inr (.inr ⟨q, rfl, h⟩)
  | finish q =>
    -- the check that nothing follows a complete list never fails
    simp only [hs, Move.carry, afterList?_of_finish hs] at h
    cases h
  | stop why' =>
    rw [hs] at h
    cases h
    exact .inl rfl

/-- Where a walk stops, a token has stopped it. -/
theorem exists_step_of_stop {t : Token} {rest : List Token} {phase : Phase} {why : Stop}
    (h : (walk input t rest phase).stop = some why) :
    ∃ phase u, step input phase u = .stop why := by
  induction rest generalizing t phase with
  | nil =>
    rw [walk] at h
    rcases stop_of_carry h with hs | ⟨phase', hs, hmore⟩ | ⟨q, hs, hmore⟩
    · exact ⟨phase, t, hs⟩
    · obtain ⟨why', hwhy⟩ := exists_stop_of_shift hs
      rw [walkOut_of_stop hwhy] at hmore
      cases hmore
      exact ⟨phase', t, hwhy⟩
    · obtain ⟨why', hwhy⟩ := exists_stop_of_next hs
      rw [walkOut_of_stop hwhy] at hmore
      cases hmore
      exact ⟨.clauseStart, t, hwhy⟩
  | cons u rest ih =>
    rw [walk] at h
    rcases stop_of_carry h with hs | ⟨phase', hs, hmore⟩ | ⟨q, hs, hmore⟩
    · exact ⟨phase, t, hs⟩
    · exact ih hmore
    · exact ih hmore

/-- No token shows that the tokens go on behind a complete list. -/
theorem Shows.message_ne {phase : Phase} {t shown : Token} {problem : Problem}
    (h : Shows phase t shown problem) (found : String) :
    problem.message ≠ "Unexpected " ++ found ++ " after query list" := by
  intro heq
  have hhead := congrArg (fun s => s.toList.head?) heq
  cases h with
  | unexpected => simp [Problem.message] at hhead
  | fault hfault => cases hfault <;> simp [Problem.message] at hhead

/-! ## Nothing behind an end is looked at -/

/-- The tokens behind an end do not change the walk. -/
theorem walk_of_eof (input : String) {t : Token} (h : t.kind = .eof) (back : List Token)
    (phase : Phase) : walk input t back phase = walk input t [] phase := by
  have hhalts : (∃ q, step input phase t = .finish q) ∨ ∃ why, step input phase t = .stop why :=
    finish_or_stop_of_eof h
  rcases hhalts with ⟨q, hs⟩ | ⟨why, hs⟩
  · cases back <;> simp only [walk, hs, Move.carry]
  · cases back <;> simp only [walk, hs, Move.carry]

theorem walk_append_eof (input : String) (t : Token) {last : Token} (h : last.kind = .eof)
    (front back : List Token) (phase : Phase) :
    walk input t (front ++ last :: back) phase = walk input t (front ++ [last]) phase := by
  induction front generalizing t phase with
  | nil => simp only [List.nil_append, walk, walk_of_eof input h back]
  | cons u front ih => simp only [List.cons_append, walk, ih]

/-- The tokens up to an end are walked through as they are with others behind it. -/
theorem exists_walk_eof (input : String) {last : Token} (h : last.kind = .eof)
    (front back : List Token) :
    ∃ w, Reading.ofTokens input (front ++ last :: back) =
        Reading.ofWalk input (front ++ last :: back) w ∧
      Reading.ofTokens input (front ++ [last]) = Reading.ofWalk input (front ++ [last]) w := by
  cases front with
  | nil =>
    refine ⟨walk input last [] .clauseStart, ?_, rfl⟩
    rw [← walk_of_eof input h back]
    rfl
  | cons t front =>
    refine ⟨walk input t (front ++ [last]) .clauseStart, ?_, rfl⟩
    rw [← walk_append_eof input t h front back]
    rfl

/-- Among fewer tokens a clause ends where it did, or with the input. -/
theorem clauseEnd_append (cut back : List Token) (t : Token) :
    clauseEnd input (cut ++ back) t = clauseEnd input cut t ∨
      clauseEnd input cut t = byteLength input.toList := by
  unfold clauseEnd
  rw [List.find?_append]
  cases cut.find? fun u => t.span.stop ≤ u.span.start && u.kind.endsClause with
  | none => exact .inr rfl
  | some u => exact .inl rfl

/-- A problem is placed where it was when the tokens behind an end are cut off. -/
theorem exists_locate_cut {cut back : List Token} {t : Token} {problem : Problem} {e : SyntaxError}
    (h : locate input (cut ++ back) t problem = .syntaxError e) :
    ∃ e', locate input cut t problem = .syntaxError e' ∧ e'.position = e.position ∧
      e'.problem = e.problem := by
  have hfits : (fragmentSpan input (cut ++ back) t).Fits input.toList :=
    exists_locate_iff.mp ⟨e, h⟩
  have hcut : (fragmentSpan input cut t).Fits input.toList := by
    rcases clauseEnd_append cut back t with hsame | hend
    · rwa [fragmentSpan, hsame] at hfits
    · have hstart : IsBoundary input.toList t.span.start := hfits.start
      rw [fragmentSpan, hend, Nat.max_eq_left hstart.le]
      exact hstart.fits (isBoundary_byteLength _) hstart.le
  have hlocate : ∃ e, locate input cut t problem = .syntaxError e := exists_locate_iff.mpr hcut
  obtain ⟨e', he'⟩ := hlocate
  refine ⟨e', he', ?_, ?_⟩
  · rw [(eq_of_locate he').1, (eq_of_locate h).1]
  · rw [(eq_of_locate he').2, (eq_of_locate h).2]

/-! ## Reading any tokens -/

/-- **Any tokens are read, as far as they have an end.** Let a token list have at least one token,
of whatever kind, text and place. A cursor that stays at the last token comes to an end of its walk
when it may look at one token more than there are, and what reading comes to is read off there. It
never complains of tokens behind a complete list. It succeeds only if some token marks an end. And
where one does, the tokens behind it may be cut off: the queries stay the same, and so do the
place and the problem of a syntax error, of which only the fragment may change. -/
theorem parseTokens_endBarrier (input : String) (t : Token) (rest : List Token) :
    (∃ w, (∀ limit, rest.length + 1 < limit →
        walkWithin input (peek t rest) limit 0 .clauseStart = some w) ∧
      parseTokens input (t :: rest) = (Reading.ofWalk input (t :: rest) w).result) ∧
    (∀ e found, parseTokens input (t :: rest) = .error (.syntaxError e) →
      e.detail ≠ "Unexpected " ++ found ++ " after query list") ∧
    (∀ l, parseTokens input (t :: rest) = .ok l → ∃ u ∈ t :: rest, u.kind = .eof) ∧
    ∀ front last back, t :: rest = front ++ last :: back → last.kind = .eof →
      (∀ l, parseTokens input (t :: rest) = .ok l →
        parseTokens input (front ++ [last]) = .ok l) ∧
      ∀ e, parseTokens input (t :: rest) = .error (.syntaxError e) →
        ∃ e', parseTokens input (front ++ [last]) = .error (.syntaxError e') ∧
          e'.position = e.position ∧ e'.problem = e.problem := by
  refine ⟨?_, ?_, ?_, ?_⟩
  · refine ⟨walk input t rest .clauseStart, fun limit hlimit => ?_, rfl⟩
    refine walkWithin_eq (fun i => ?_) hlimit .clauseStart
    rw [Nat.zero_add]
  · intro e found h
    obtain ⟨clauses, shown, hwalk, -⟩ := exists_walk_of_error h
    obtain ⟨phase, u, hs⟩ := exists_step_of_stop (congrArg Walk.stop hwalk)
    exact (shows_of_step hs).message_ne found
  · intro l h
    obtain ⟨front, u, back, -, last, q, htokens, -, hs, -⟩ :=
      reads_iff_leads.mp (parseTokens_eq_ok_iff_reads.mp h)
    refine ⟨u, ?_, kind_of_finish hs⟩
    rw [htokens]
    exact List.mem_append_right front List.mem_cons_self
  · intro front last back htokens hlast
    rw [htokens]
    obtain ⟨w, hall, hcut⟩ := exists_walk_eof input hlast front back
    simp only [parseTokens, hall, hcut]
    constructor
    · intro l h
      obtain rfl := walk_of_ok h
      rfl
    · intro e h
      obtain ⟨clauses, shown, rfl, hlocate⟩ := exists_walk_of_error h
      rw [List.append_cons] at hlocate
      obtain ⟨e', he', hposition, hproblem⟩ := exists_locate_cut hlocate
      exact ⟨e', congrArg Except.error he', hposition, hproblem⟩

/-- A list that ends in a conjunction is looked at once more there, whatever the limit. Behind an
end a comma is not looked at, though it bounds the fragment of a problem. -/
theorem parseTokens_endBarrier_cut :
    (∀ limit, 2 < limit →
      walkWithin "tv" (peek ⟨.identifier, ⟨0, 2⟩, "tv"⟩ [⟨.and, ⟨2, 2⟩, "and"⟩]) limit 0
        .clauseStart =
          some ⟨[], some (.problem ⟨.and, ⟨2, 2⟩, "and"⟩
            (.unexpected .openParen (.text "and")))⟩) ∧
    ∃ e', parseTokens "(a" [⟨.leftParen, ⟨0, 1⟩, "("⟩, ⟨.eof, ⟨1, 1⟩, ""⟩] =
        .error (.syntaxError e') ∧
      e'.position = 1 ∧ e'.problem = .unexpected .featureName .endOfInput := by
  constructor
  · intro limit hlimit
    obtain ⟨w, hwithin, -⟩ := (parseTokens_endBarrier "tv" ⟨.identifier, ⟨0, 2⟩, "tv"⟩
      [⟨.and, ⟨2, 2⟩, "and"⟩]).1
    rw [hwithin limit hlimit, ← hwithin 3 (by decide)]
    cbv
  · have herror : parseTokens "(a" [⟨.leftParen, ⟨0, 1⟩, "("⟩, ⟨.eof, ⟨1, 1⟩, ""⟩,
        ⟨.comma, ⟨1, 2⟩, ","⟩] =
          .error (.syntaxError ⟨1, "", .unexpected .featureName .endOfInput⟩) := by cbv
    exact ((parseTokens_endBarrier "(a" _ _).2.2.2 [_] _ [_] rfl rfl).2 _ herror

end MediaQuery
