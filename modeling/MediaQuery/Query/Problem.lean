import MediaQuery.Query.Basic
import MediaQuery.Token.Basic

/-!
# Problems — why a query list is refused

A query list is refused for the first thing that is wrong with it. A problem says what that is; a
syntax error adds where: the byte offset and the rest of the clause from there.
-/

namespace MediaQuery

/-- What a token was expected to be. -/
inductive Expected where
  | mediaType
  | mediaTypeOrParen
  | conjunctionOrEnd
  | openParen
  | featureName
  | featureValue
  | denominator
  | closeParen
  deriving DecidableEq, Repr

/-- How an expectation is worded. -/
def Expected.words : Expected → String
  | .mediaType => "media type"
  | .mediaTypeOrParen => "media type or '('"
  | .conjunctionOrEnd => "'and', ',' or end of input"
  | .openParen => "'(' to open a feature expression"
  | .featureName => "feature name"
  | .featureValue => "feature value"
  | .denominator => "denominator after '/'"
  | .closeParen => "')' to close a feature expression"

/-- What was found instead. -/
inductive Found where
  | text (text : String)
  | endOfInput
  deriving DecidableEq, Repr

/-- How a finding is worded. -/
def Found.words : Found → String
  | .text t => "'" ++ t ++ "'"
  | .endOfInput => "end of input"

/-- The token as something found. -/
def Token.found (t : Token) : Found :=
  match t.kind with
  | .eof => .endOfInput
  | _ => .text t.text

/-- What is wrong with a query list. -/
inductive Problem where
  /-- another token had to stand here -/
  | unexpected (expected : Expected) (found : Found)
  /-- a feature whose name makes its value a bound has no value -/
  | missingValue (modifier : Modifier) (name : String)
  /-- the first number of a fraction has a unit -/
  | numeratorUnit
  /-- the second number of a fraction has a unit -/
  | denominatorUnit
  /-- the tokens go on where the list is complete -/
  | afterList (found : Found)
  /-- there is no token, not even one for the end -/
  | noTokens
  deriving DecidableEq, Repr

/-- How a problem is worded. -/
def Problem.message : Problem → String
  | .unexpected expected found => "Expected " ++ expected.words ++ ", got " ++ found.words
  | .missingValue modifier name =>
    "'" ++ modifier.word ++ "-' feature '" ++ name ++ "' requires a value"
  | .numeratorUnit => "Fraction numerator must be a plain number"
  | .denominatorUnit => "Fraction denominator must be a plain number"
  | .afterList found => "Unexpected " ++ found.words ++ " after query list"
  | .noTokens => "Empty token stream"

/-- A problem and the place of the token that shows it. -/
structure SyntaxError where
  /-- the byte offset at which the token starts -/
  position : Nat
  /-- the text from there to the end of the clause, without blanks at its end -/
  fragment : String
  problem : Problem
  deriving DecidableEq, Repr

namespace SyntaxError

/-- What is wrong, in words. -/
def detail (e : SyntaxError) : String :=
  e.problem.message

/-- What is wrong and where, in words. -/
def message (e : SyntaxError) : String :=
  "Media query syntax error at position " ++ toString e.position ++ ": " ++ e.detail ++
    " (near \"" ++ e.fragment ++ "\")"

end SyntaxError

end MediaQuery
