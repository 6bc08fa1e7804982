import Mathlib
import MediaQuery.Proofs.Query.Moved

/-!
# Outlines — the walk without places

The outline of a token is its kind and its text, placed at the beginning of an empty text; that of a
query has no text that was taken from between tokens. Outlines mirror the tokens of any input
(`mirrors_outline`), because every part of the empty text from its beginning to its beginning exists
and is empty. So the outline of a path is a path (`Leads.outline`): which way a walk goes, where it
stops and for what problem depends on the kinds and the texts of the tokens alone.
-/

namespace MediaQuery

/-! ## Outlines -/

/-- The token at the beginning of an empty text. -/
def Token.outline (t : Token) : Token :=
  { t with span := ⟨0, 0⟩ }

/-- The test without the text of its value. -/
def Expression.outline (e : Expression) : Expression :=
  { e with value := e.value.map fun _ => "" }

/-- The query without the texts of its hacks and values. -/
def Query.outline (q : Query) : Query :=
  { q with preTypeHack := "", postTypeHack := "", expressions := q.expressions.map .outline }

def Phase.outline : Phase → Phase :=
  Phase.map Token.outline Query.outline Expression.outline

theorem Token.outline_kind (t : Token) : t.outline.kind = t.kind := rfl

/-- Tokens have the same outlines where they have the same kinds and texts. -/
theorem Token.outline_eq_iff {t u : Token} : t.outline = u.outline ↔ t.spelling = u.spelling := by
  simp only [outline, spelling, Token.mk.injEq, true_and, Prod.mk.injEq]

theorem map_outline_eq_iff {ts us : List Token} :
    ts.map Token.outline = us.map Token.outline ↔
      ts.map Token.spelling = us.map Token.spelling := by
  induction ts generalizing us with
  | nil => simp only [List.map_nil, List.nil_eq, List.map_eq_nil_iff]
  | cons t ts ih =>
    cases us with
    | nil => simp only [List.map_cons, List.map_nil, reduceCtorEq]
    | cons u us => simp only [List.map_cons, List.cons.injEq, Token.outline_eq_iff, ih]

/-! ## Outlines as images -/

/-- Texts of tokens are kept, and texts from between tokens are not. -/
def Respelling.outline : Respelling :=
  { Respelling.same with
    value := fun _ => ""
    preHack := fun _ => ""
    postHack := fun _ => ""
    preHack_empty := rfl
    postHack_empty := rfl }

theorem Problem.respell_outline (problem : Problem) : problem.respell .outline = problem :=
  problem.respell_eq fun _ => rfl

theorem Phase.respell_outline (phase : Phase) :
    phase.respell .outline Token.outline = phase.outline := rfl

/-- Every part of the empty text from its beginning to its beginning is empty. -/
theorem mirrors_outline (input : String) : Mirrors input "" .outline Token.outline where
  word_empty := rfl
  kind _ := rfl
  text _ := rfl
  part _ := rfl
  upTo _ := rfl
  behind _ := rfl

/-! ## Paths of outlines -/

section Path

variable {input : String} {phase last : Phase} {ts : List Token} {l : QueryList} {t : Token}

theorem finish_outline {q : Query} (h : step input phase t = .finish q) :
    step "" phase.outline t.outline = .finish q.outline := by
  have himage := (mirrors_outline input).finish h
  rwa [phase.respell_outline] at himage

theorem problem_outline {shown : Token} {problem : Problem}
    (h : step input phase t = .stop (.problem shown problem)) :
    step "" phase.outline t.outline = .stop (.problem shown.outline problem) := by
  have himage := (mirrors_outline input).problem h
  rwa [phase.respell_outline, problem.respell_outline] at himage

/-- **The outline of a path is a path** through the outlines of its tokens. -/
theorem Leads.outline (h : Leads input phase ts l last) :
    Leads "" phase.outline (ts.map .outline) (l.map .outline) last.outline := by
  have himage := (mirrors_outline input).leads h
  rwa [phase.respell_outline, last.respell_outline] at himage

end Path

end MediaQuery
