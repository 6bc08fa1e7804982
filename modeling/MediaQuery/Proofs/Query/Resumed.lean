import MediaQuery.Query.Walk
import MediaQuery.Proofs.Query.Alike

/-!
# Resumed clauses — the same tokens behind another beginning

In the tests of a clause the walk only adds to the query that it has begun. With another one it
takes the same way, stops where it did for the same problem, and completes the other query with the
same tests added; the clauses behind the next comma do not change at all. So two walks through the
same tokens, of which one has begun another query, are alike (`Likeness.begun`), and the first
clause is the only one that tells them apart (`walk_of_alike`).
-/

namespace MediaQuery

variable {input : String} {g : Query → Query}

/-- The walk with another query for the first clause. -/
def Walk.mapFirst (g : Query → Query) (w : Walk) : Walk :=
  ⟨w.clauses.modifyHead g, w.stop⟩

/-- The second of two walks through the same tokens has begun another query. -/
def Likeness.begun (input : String) (g : Query → Query) : Likeness where
  input := input
  input' := input
  token t t' := t' = t
  query q q' := q' = g q
  test e e' := e' = e

section Begun

/-- Tests are added to the other query as they are to the first. -/
theorem Likeness.tests_begun (hg : ∀ q e, g (q.add e) = (g q).add e) :
    (Likeness.begun input g).Tests where
  kind := by
    rintro t _ rfl
    rfl
  add := by
    rintro q _ _ e rfl rfl
    exact (hg q e).symm
  bare := by
    rintro name _ rfl
    rfl
  valued := by
    rintro name _ first _ last _ part part' rfl rfl rfl hpart hpart'
    rw [hpart.unique hpart']
    rfl

/-- The hack behind the media type is the other query's as well. -/
theorem Likeness.hacks_begun
    (hg : ∀ (q : Query) text, g { q with postTypeHack := text } =
      { g q with postTypeHack := text }) : (Likeness.begun input g).Hacks where
  postTypeHack := by
    rintro q _ type _ t _ part part' rfl rfl rfl hpart hpart'
    rw [hpart.unique hpart']
    exact (hg q part').symm

theorem Likeness.guards_begun : (Likeness.begun input g).Guards where
  hasUnit := by
    rintro t _ rfl
    rfl
  modifier := by
    rintro t _ rfl
    rfl

theorem Span.Alike.eq_of_begun {span span' : Span} (h : span.Alike (.begun input g) span') :
    span' = span := by
  cases h with
  | upTo ht hu => rw [ht, hu]
  | behind ht hu => rw [ht, hu]
  | whole ht hu => rw [ht, hu]

theorem Problem.Alike.eq_of_begun {problem problem' : Problem}
    (h : problem.Alike (.begun input g) problem') : problem' = problem := by
  cases h with
  | unexpected what ht => rw [ht]
  | missingValue modifier hname => rw [hname]
  | numeratorUnit => rfl
  | denominatorUnit => rfl

end Begun

/-- A token does the same to both walks. -/
theorem step_begun (hg : ∀ q e, g (q.add e) = (g q).add e) {phase phase' : Phase}
    (h : phase.Alike (.begun input g) phase') (t : Token) :
    (step input phase t).Alike (.begun input g) (step input phase' t) := by
  have htakes := h.takes (Likeness.tests_begun hg) (t := t) rfl
  have heq : phase'.takes t = phase.takes t := by
    generalize phase.takes t = span?, phase'.takes t = span?' at htakes ⊢
    cases htakes with
    | none => rfl
    | some hspan => rw [hspan.eq_of_begun]
  refine step_alike h (Likeness.tests_begun hg) Likeness.guards_begun rfl ?_
  simp only [Phase.Keeps, heq]
  rfl

/-- Alike moves make walks that differ in the first clause, if those that they lead to do. -/
theorem Move.Alike.carry_begun {move move' : Move} {t : Token} {more : Phase → Walk}
    (h : move.Alike (.begun input g) move')
    (hmore : ∀ phase phase', move = .shift phase → phase.Alike (.begun input g) phase' →
      more phase' = (more phase).mapFirst g) :
    move'.carry t more = (move.carry t more).mapFirst g := by
  cases h with
  | shift hphase => exact hmore _ _ rfl hphase
  | next hq => rw [hq]; rfl
  | finish hq => rw [hq]; rfl
  | problem hshown hproblem => rw [hshown, hproblem.eq_of_begun]; rfl
  | outOfRange hspan => rw [hspan.eq_of_begun]; rfl

theorem walkOut_of_alike (hg : ∀ q e, g (q.add e) = (g q).add e) {last : Token}
    {phase phase' : Phase} (h : phase.Alike (.begun input g) phase') :
    walkOut input last phase' = (walkOut input last phase).mapFirst g := by
  induction phase using walkOut_induction input last generalizing phase' with
  | step phase hshift hnext =>
    rw [walkOut_eq, walkOut_eq]
    exact (step_begun hg h last).carry_begun fun next _ hs hnext => hshift next hs hnext

/-- **Where a token does the same to another query, so does the walk from there.** The first clause
of the walk is the other query with the same tests added, and the rest of the walk is the same. -/
theorem walk_of_alike (hg : ∀ q e, g (q.add e) = (g q).add e) {phase phase' : Phase} {t : Token}
    (h : (step input phase t).Alike (.begun input g) (step input phase' t)) (rest : List Token) :
    walk input t rest phase' = (walk input t rest phase).mapFirst g := by
  -- the first token may lead to alike phases; every other one finds the walk in such
  induction rest generalizing t phase phase' with
  | nil =>
    rw [walk, walk]
    exact h.carry_begun fun _ _ _ hphase => walkOut_of_alike hg hphase
  | cons u rest ih =>
    rw [walk, walk]
    exact h.carry_begun fun _ _ _ hphase => ih (step_begun hg hphase u)

end MediaQuery
