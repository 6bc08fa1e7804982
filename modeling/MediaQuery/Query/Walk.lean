import MediaQuery.Query.Step

/-!
# The walk — from tokens to queries, one token at a time

The walk goes from phase to phase with the tokens, completes queries on its way, and ends where the
list is complete or a token stops it. The cursor that it follows stays at the last token when it has
come to the end of them (`peek`), and sees it again and again. No measure of the list says that such
a cursor comes to an end. It does because no token is what the phase that it leads to needs: looked
at once more, the last token stops the walk (`exists_stop_of_shift`, `exists_stop_of_next`).
-/

namespace MediaQuery

/-- What a walk through a token list has come to: the queries of the clauses it completed, and why
it stopped, if it did before the list was complete. -/
structure Walk where
  clauses : List Query
  stop : Option Stop
  deriving DecidableEq, Repr

/-! ## Through a list -/

/-- What is wrong where the last clause of a list has ended, unless the tokens have ended too. -/
def afterList? (t : Token) : Option Stop :=
  if t.kind = .eof then none else some (.problem t (.afterList t.found))

/-- What a move of a token makes of the walk, where `more` is the walk from the phase it leads
to. -/
def Move.carry (t : Token) (more : Phase → Walk) : Move → Walk
  | .shift phase => more phase
  | .next query => ⟨query :: (more .clauseStart).clauses, (more .clauseStart).stop⟩
  | .finish query => ⟨[query], afterList? t⟩
  | .stop why => ⟨[], some why⟩

/-- The walk where the token list has run out, and the cursor stays at its last token. -/
def walkOut (input : String) (last : Token) (phase : Phase) : Walk :=
  match _ : step input phase last with
  | .shift phase' => walkOut input last phase'
  | .next query =>
    ⟨query :: (walkOut input last .clauseStart).clauses, (walkOut input last .clauseStart).stop⟩
  | .finish query => ⟨[query], afterList? last⟩
  | .stop why => ⟨[], some why⟩
termination_by (step input phase last).goes.toNat
decreasing_by
  · next h =>
    obtain ⟨why, hwhy⟩ := exists_stop_of_shift h
    rw [h, hwhy]
    exact Nat.zero_lt_one
  · next h =>
    obtain ⟨why, hwhy⟩ := exists_stop_of_next h
    rw [h, hwhy]
    exact Nat.zero_lt_one

/-- The walk from a phase, at a token that others follow. The end of the input ends the walk,
whatever follows it. -/
def walk (input : String) : Token → List Token → Phase → Walk
  | t, [], phase => (step input phase t).carry t fun phase => walkOut input t phase
  | t, u :: rest, phase => (step input phase t).carry t fun phase => walk input u rest phase

/-- Behind the end of the list every look at the last token is a step of the walk. -/
theorem walkOut_eq (input : String) (last : Token) (phase : Phase) :
    walkOut input last phase = (step input phase last).carry last (walkOut input last) := by
  rw [walkOut]
  split <;> next h => rw [h]; rfl

theorem walkOut_of_stop {input : String} {last : Token} {phase : Phase} {why : Stop}
    (h : step input phase last = .stop why) : walkOut input last phase = ⟨[], some why⟩ := by
  rw [walkOut_eq, h, Move.carry]

theorem walkOut_of_shift {input : String} {last : Token} {phase phase' : Phase}
    (h : step input phase last = .shift phase') :
    ∃ why, walkOut input last phase' = ⟨[], some why⟩ := by
  obtain ⟨why, hwhy⟩ := exists_stop_of_shift h
  exact ⟨why, walkOut_of_stop hwhy⟩

theorem walkOut_of_next {input : String} {last : Token} {phase : Phase} {q : Query}
    (h : step input phase last = .next q) :
    ∃ why, walkOut input last .clauseStart = ⟨[], some why⟩ := by
  obtain ⟨why, hwhy⟩ := exists_stop_of_next h
  exact ⟨why, walkOut_of_stop hwhy⟩

/-- **Where a list is complete, nothing is wrong behind it**: the last clause has ended with the end
of the text. -/
theorem afterList?_of_finish {input : String} {phase : Phase} {t : Token} {q : Query}
    (h : step input phase t = .finish q) : afterList? t = none := by
  rw [afterList?, kind_of_finish h, if_pos rfl]

/-- To prove something of the walk from every phase behind the end of the list, prove it of a phase
where it holds of the phase that the last token leads to. -/
theorem walkOut_induction (input : String) (last : Token) {motive : Phase → Prop}
    (step : ∀ phase, (∀ phase', MediaQuery.step input phase last = .shift phase' → motive phase') →
      (∀ q, MediaQuery.step input phase last = .next q → motive .clauseStart) → motive phase)
    (phase : Phase) : motive phase := by
  -- the last token leads to a phase where it stops the walk, and nothing is asked of such a phase
  have hstopped {phase : Phase} (hstop : ∃ why, MediaQuery.step input phase last = .stop why) :
      motive phase := by
    obtain ⟨why, hwhy⟩ := hstop
    refine step phase (fun _ hs => ?_) (fun _ hs => ?_) <;>
      · rw [hwhy] at hs
        cases hs
  exact step phase (fun _ hs => hstopped (exists_stop_of_shift hs))
    (fun _ hs => hstopped (exists_stop_of_next hs))

/-! ## By looks

A cursor may look at tokens for ever, so its walk has a limit to the number of looks, and comes to
nothing where the limit is too low. Which limit is high enough is for proofs to say.
-/

/-- The token that a cursor sees after so many steps through the list; behind the end it stays at
the last token. -/
def peek (t : Token) (rest : List Token) (steps : Nat) : Token :=
  (t :: rest).getD (min steps rest.length) t

/-- The walk of a cursor from a phase, if no more looks than the limit bring it to an end. -/
def walkWithin (input : String) (look : Nat → Token) : Nat → Nat → Phase → Option Walk
  | 0, _, _ => none
  | limit + 1, steps, phase =>
    match step input phase (look steps) with
    | .shift phase => walkWithin input look limit (steps + 1) phase
    | .next query =>
      (walkWithin input look limit (steps + 1) .clauseStart).map fun w =>
        ⟨query :: w.clauses, w.stop⟩
    | .finish query => some ⟨[query], afterList? (look steps)⟩
    | .stop why => some ⟨[], some why⟩

theorem peek_zero (t : Token) (rest : List Token) : peek t rest 0 = t := rfl

theorem peek_nil (t : Token) (steps : Nat) : peek t [] steps = t := by
  rw [peek, List.length_nil, Nat.min_zero]
  rfl

/-- Behind its first token a list is seen as if it stood alone. -/
theorem peek_succ (t u : Token) (rest : List Token) (steps : Nat) :
    peek t (u :: rest) (steps + 1) = peek u rest steps := by
  have hlt : min steps rest.length < (u :: rest).length :=
    Nat.lt_succ_of_le (Nat.min_le_right _ _)
  rw [peek, peek, List.length_cons, Nat.add_min_add_right, List.getD_cons_succ,
    List.getD_eq_getElem?_getD, List.getD_eq_getElem?_getD, List.getElem?_eq_getElem hlt]
  rfl

end MediaQuery
