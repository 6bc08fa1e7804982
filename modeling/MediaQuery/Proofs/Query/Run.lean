import MediaQuery.Query.Grammar
import MediaQuery.Query.Parser

/-!
# Runs — the walks that complete a list

A walk that completes a list takes one token after the other, each of which goes on with the clause,
ends it or ends the list. `Reads` is that run as a relation between a phase, the tokens from there
on and the queries that the run completes; `parse_eq_ok_iff_reads` says that reading a text
succeeds exactly along such a run.
-/

namespace MediaQuery

variable {input : String}

/-- From the phase on, the walk reads the tokens up to an end of the list and completes the
queries. -/
inductive Reads (input : String) : Phase → List Token → QueryList → Prop where
  | shift {phase phase' : Phase} {t : Token} {ts : List Token} {l : QueryList} :
      step input phase t = .shift phase' → Reads input phase' ts l →
        Reads input phase (t :: ts) l
  | next {phase : Phase} {t : Token} {ts : List Token} {q : Query} {l : QueryList} :
      step input phase t = .next q → Reads input .clauseStart ts l →
        Reads input phase (t :: ts) (q :: l)
  | finish {phase : Phase} {t : Token} {ts : List Token} {q : Query} :
      step input phase t = .finish q → Reads input phase (t :: ts) [q]

/-- A walk that does not stop early is a run, and every run is one. -/
theorem walk_eq_iff_reads {t : Token} {ts : List Token} {phase : Phase} {l : QueryList} :
    walk input t ts phase = ⟨l, none⟩ ↔ Reads input phase (t :: ts) l := by
  induction ts generalizing t phase l with
  | nil =>
    rw [walk]
    constructor
    · intro h
      cases hs : step input phase t with
      | shift phase' =>
        obtain ⟨why, hout⟩ := walkOut_of_shift hs
        simp only [hs, Move.carry, hout] at h
        cases h
      | next q =>
        obtain ⟨why, hout⟩ := walkOut_of_next hs
        simp only [hs, Move.carry, hout] at h
        cases h
      | finish q =>
        simp only [hs, Move.carry, afterList?_of_finish hs] at h
        cases h
        exact .finish hs
      | stop why => rw [hs] at h; cases h
    · intro h
      cases h with
      | shift _ hrest => cases hrest
      | next _ hrest => cases hrest
      | finish hs => rw [hs, Move.carry, afterList?_of_finish hs]
  | cons u ts ih =>
    rw [walk]
    constructor
    · intro h
      cases hs : step input phase t with
      | shift phase' => rw [hs] at h; exact .shift hs (ih.mp h)
      | next q =>
        rw [hs] at h
        simp only [Move.carry, Walk.mk.injEq] at h
        obtain ⟨rfl, hstop⟩ := h
        have hrest : walk input u ts .clauseStart =
            ⟨(walk input u ts .clauseStart).clauses, (walk input u ts .clauseStart).stop⟩ := rfl
        rw [hstop] at hrest
        exact .next hs (ih.mp hrest)
      | finish q =>
        simp only [hs, Move.carry, afterList?_of_finish hs] at h
        cases h
        exact .finish hs
      | stop why => rw [hs] at h; cases h
    · intro h
      cases h with
      | shift hs hrest => rw [hs]; exact ih.mpr hrest
      | next hs hrest => rw [hs]; simp only [Move.carry, ih.mpr hrest]
      | finish hs => rw [hs, Move.carry, afterList?_of_finish hs]

/-- Reading a token list succeeds exactly along a run from the beginning of a clause. -/
theorem parseTokens_eq_ok_iff_reads {tokens : List Token} {l : QueryList} :
    parseTokens input tokens = .ok l ↔ Reads input .clauseStart tokens l := by
  cases tokens with
  | nil =>
    constructor
    · intro h
      cases h
    · intro h
      cases h
  | cons t ts =>
    rw [← walk_eq_iff_reads]
    simp only [parseTokens, Reading.ofTokens, Reading.ofWalk, Reading.result]
    cases hw : walk input t ts .clauseStart with
    | mk clauses stop =>
      cases stop with
      | none => simp only [Option.map_none, Except.ok.injEq, Walk.mk.injEq, and_true]
      | some why =>
        simp only [Option.map_some, reduceCtorEq, Walk.mk.injEq, and_false]

/-- Reading a text succeeds exactly along a run through its tokens. -/
theorem parse_eq_ok_iff_reads {l : QueryList} :
    parse input = .ok l ↔ Reads input .clauseStart (tokenize input) l :=
  parseTokens_eq_ok_iff_reads

end MediaQuery
