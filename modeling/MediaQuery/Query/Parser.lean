import MediaQuery.Query.Walk
import MediaQuery.Token.Lexer

/-!
# Reading query lists — `parse` and `parseTokens`

`parse` reads a text through its tokens; `parseTokens` reads any token list over any input. One
faulty clause refuses the whole list. A problem is placed at the token that shows it, and its
fragment runs from there to the end of the clause: to the next comma or end that starts no earlier
than the token stops. A comma that is itself at fault therefore belongs to its fragment.
-/

namespace MediaQuery

/-- Why no query list was read. -/
inductive Failure where
  | syntaxError (error : SyntaxError)
  /-- the tokens ask for a part of the input that does not exist; those of the input itself never
  do -/
  | outOfRange (span : Span)
  deriving DecidableEq, Repr

/-- The byte offset at which the clause of a token ends. -/
def clauseEnd (input : String) (tokens : List Token) (t : Token) : Nat :=
  match tokens.find? fun u => t.span.stop ≤ u.span.start && u.kind.endsClause with
  | some u => u.span.start
  | none => byteLength input.toList

/-- A problem with the place of the token that shows it. -/
def locate (input : String) (tokens : List Token) (t : Token) (problem : Problem) : Failure :=
  let span : Span := ⟨t.span.start, max (clauseEnd input tokens t) t.span.start⟩
  match slice? input.toList span with
  | some text => .syntaxError ⟨t.span.start, String.ofList (trimEnd text), problem⟩
  | none => .outOfRange span

/-- What reading has come to: the queries of the clauses it completed, and why it failed, if it
did. -/
structure Reading where
  clauses : List Query
  failure : Option Failure
  deriving DecidableEq, Repr

namespace Reading

/-- A walk with its stop placed in the input. -/
def ofWalk (input : String) (tokens : List Token) (w : Walk) : Reading :=
  ⟨w.clauses, w.stop.map fun
    | .problem t problem => locate input tokens t problem
    | .outOfRange span => .outOfRange span⟩

/-- The reading of a token list. -/
def ofTokens (input : String) (tokens : List Token) : Reading :=
  match tokens with
  | [] => ⟨[], some (.syntaxError ⟨0, "", .noTokens⟩)⟩
  | t :: rest => ofWalk input tokens (walk input t rest .clauseStart)

/-- The reading of a text. -/
def ofText (input : String) : Reading :=
  ofTokens input (tokenize input)

/-- The query list that was read, or why there is none. -/
def result (r : Reading) : Except Failure QueryList :=
  match r.failure with
  | none => .ok r.clauses
  | some failure => .error failure

end Reading

/-- The query list that a token list over an input stands for. -/
def parseTokens (input : String) (tokens : List Token) : Except Failure QueryList :=
  (Reading.ofTokens input tokens).result

/-- The query list that a text stands for. -/
def parse (input : String) : Except Failure QueryList :=
  (Reading.ofText input).result

end MediaQuery
