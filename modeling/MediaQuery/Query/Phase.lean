import MediaQuery.Query.Problem
import MediaQuery.Token.Pattern

/-!
# Phases — what one token does to the reading of a clause

A clause is `[hack] [not | only] type [hack] (and test)*` or `test (and test)*`, a test is
`( feature [: value] )`, and a value is a word, a number or a fraction, with a hack after it if one
likes. Since tests do not nest, where a walk through the tokens stands is one of thirteen phases,
and each token takes it to the next (`step`). A phase holds what has been read of its clause: the
query so far, and the tokens whose places are still needed.

Media types and feature names are taken from the texts of tokens, hacks and values from the text of
the input between two tokens. `step` is put together from tables of what a phase does with a token:
which part of the input it takes, what it finds wrong, where it goes on, which query it has
completed, and what it expected otherwise. What is proved of a step (`step_justified`) speaks of the
tables too, so that a law of the walk looks at phases only where it needs a table.
-/

namespace MediaQuery

/-- Where the walk stands in a clause. -/
inductive Phase where
  /-- at the beginning of a clause -/
  | clauseStart
  /-- after a hack that begins a clause -/
  | afterHack (hack : Token)
  /-- after `not` or `only` -/
  | beforeType (query : Query)
  /-- after the media type -/
  | afterType (query : Query) (type : Token)
  /-- after the media type and its hack, or after a test -/
  | afterPart (query : Query)
  /-- after `and` -/
  | beforeTest (query : Query)
  /-- after the parenthesis that opens a test -/
  | beforeName (query : Query)
  /-- after the name of a feature -/
  | afterName (query : Query) (name : Token)
  /-- after the colon -/
  | beforeValue (query : Query) (name : Token)
  /-- after a number, which may be the numerator of a fraction -/
  | afterNumber (query : Query) (name number : Token)
  /-- after the slash of a fraction -/
  | beforeDenominator (query : Query) (name numerator : Token)
  /-- after a word or a fraction that is the value or its beginning -/
  | afterOperand (query : Query) (name first last : Token)
  /-- after the whole value -/
  | beforeClose (query : Query) (test : Expression)
  deriving DecidableEq, Repr

/-- Why the walk stops before the list is complete. -/
inductive Stop where
  /-- the token shows a problem -/
  | problem (token : Token) (problem : Problem)
  /-- a part of the input was to be kept that does not exist -/
  | outOfRange (span : Span)
  deriving DecidableEq, Repr

/-- What a token does to the walk. -/
inductive Move where
  /-- the clause goes on -/
  | shift (phase : Phase)
  /-- the clause is complete and another follows -/
  | next (query : Query)
  /-- the clause is complete and no other follows -/
  | finish (query : Query)
  | stop (why : Stop)
  deriving DecidableEq, Repr

/-! ## Texts of tokens -/

/-- The number has a unit. -/
def hasUnit (number : String) : Bool :=
  number.toList.getLast?.any isUnitChar

/-- A unit is told from the last character, a letter or the percent sign. -/
theorem hasUnit_iff {number : String} : hasUnit number = true ↔ ∃ front c,
    number.toList = front ++ [c] ∧ ((('A' ≤ c ∧ c ≤ 'Z') ∨ ('a' ≤ c ∧ c ≤ 'z')) ∨ c = '%') := by
  rw [hasUnit, Option.any_eq_true]
  constructor
  · rintro ⟨c, hlast, hunit⟩
    obtain ⟨front, htext⟩ := List.getLast?_eq_some_iff.mp hlast
    exact ⟨front, c, htext, isUnitChar_iff.mp hunit⟩
  · rintro ⟨front, c, htext, hunit⟩
    exact ⟨c, List.getLast?_eq_some_iff.mpr ⟨front, htext⟩, isUnitChar_iff.mpr hunit⟩

example : hasUnit "50%" = true ∧ hasUnit "1.5e3" = false ∧ hasUnit "2E" = true := by decide

/-- The test of a named feature with a value. -/
def Expression.ofName (name : Token) (value : Option String) : Expression :=
  ⟨(splitModifier name.text).1, (splitModifier name.text).2, value⟩

/-! ## Tables -/

namespace Phase

/-- What the walk expects in the phase. -/
def expects : Phase → Expected
  | .clauseStart => .mediaTypeOrParen
  | .afterHack _ | .beforeType _ => .mediaType
  | .afterType .. | .afterPart _ => .conjunctionOrEnd
  | .beforeTest _ => .openParen
  | .beforeName _ => .featureName
  | .beforeValue .. => .featureValue
  | .beforeDenominator .. => .denominator
  | .afterName .. | .afterNumber .. | .afterOperand .. | .beforeClose .. => .closeParen

/-- The query of the clause, if that may end in the phase. -/
def complete? : Phase → Option Query
  | .afterType query _ => some query
  | .afterPart query => some query
  | _ => none

/-- Where a value ends that may have a hack behind it. -/
def valueStop (last t : Token) : Nat :=
  if t.kind = .hack then t.span.stop else last.span.stop

/-- The part of the input that the walk takes at a token, if it takes one. -/
def takes (t : Token) : Phase → Option Span
  | .afterHack hack => some ⟨hack.span.start, t.span.start⟩
  | .afterType _ type => if t.kind = .hack then some ⟨type.span.stop, t.span.stop⟩ else none
  | .afterNumber _ _ number =>
    if t.kind = .slash then none else some ⟨number.span.start, valueStop number t⟩
  | .afterOperand _ _ first last => some ⟨first.span.start, valueStop last t⟩
  | _ => none

/-- What the token shows to be wrong with what was read before it, or with a denominator: a bound
without a value and the numbers of a fraction with a unit. The problem comes with the token that it
is placed at. -/
def fault? (t : Token) : Phase → Option (Token × Problem)
  | .afterName _ name =>
    if t.kind = .colon then none
    else (splitModifier name.text).1.map fun modifier => (name, .missingValue modifier name.text)
  | .afterNumber _ _ number =>
    if t.kind = .slash ∧ hasUnit number.text then some (number, .numeratorUnit) else none
  | .beforeDenominator .. =>
    if t.kind = .number ∧ hasUnit t.text then some (t, .denominatorUnit) else none
  | _ => none

/-- Where the keyword or the media type of a clause leads to. -/
def ofWord? (query : Query) (t : Token) : Option Phase :=
  match t.kind with
  | .not => some (.beforeType { query with inverse := true })
  | .only => some (.beforeType query)
  | .identifier => some (.afterType { query with mediaType := t.text } t)
  | _ => none

/-- Where the conjunction after a part of a clause leads to. -/
def ofConjunction? (query : Query) (t : Token) : Option Phase :=
  match t.kind with
  | .and => some (.beforeTest query)
  | _ => none

/-- Where the hack or the parenthesis after a value leads to. -/
def ofValueEnd? (query : Query) (test : Expression) (t : Token) : Option Phase :=
  match t.kind with
  | .hack => some (.beforeClose query test)
  | .rightParen => some (.afterPart (query.add test))
  | _ => none

/-- Where a token leads to in the phase, with the part of the input that is taken there, if the
clause goes on with it. -/
def goOn? (part : String) (t : Token) : Phase → Option Phase
  | .clauseStart =>
    match t.kind with
    | .hack => some (.afterHack t)
    | .leftParen => some (.beforeName { mediaType := "all" })
    | _ => ofWord? {} t
  | .afterHack _ => ofWord? { preTypeHack := part } t
  | .beforeType query =>
    match t.kind with
    | .identifier => some (.afterType { query with mediaType := t.text } t)
    | _ => none
  | .afterType query _ =>
    match t.kind with
    | .hack => some (.afterPart { query with postTypeHack := part })
    | _ => ofConjunction? query t
  | .afterPart query => ofConjunction? query t
  | .beforeTest query =>
    match t.kind with
    | .leftParen => some (.beforeName query)
    | _ => none
  | .beforeName query =>
    match t.kind with
    | .identifier => some (.afterName query t)
    | _ => none
  | .afterName query name =>
    match t.kind with
    | .colon => some (.beforeValue query name)
    | .rightParen => some (.afterPart (query.add (.ofName name none)))
    | _ => none
  | .beforeValue query name =>
    match t.kind with
    | .identifier => some (.afterOperand query name t t)
    | .number => some (.afterNumber query name t)
    | _ => none
  | .afterNumber query name number =>
    match t.kind with
    | .slash => some (.beforeDenominator query name number)
    | _ => ofValueEnd? query (.ofName name (some part)) t
  | .beforeDenominator query name numerator =>
    match t.kind with
    | .number => some (.afterOperand query name numerator t)
    | _ => none
  | .afterOperand query name _ _ => ofValueEnd? query (.ofName name (some part)) t
  | .beforeClose query test =>
    match t.kind with
    | .rightParen => some (.afterPart (query.add test))
    | _ => none

/-! ## Steps -/

/-- Another token had to stand here. -/
def unexpected (phase : Phase) (t : Token) : Move :=
  .stop (.problem t (.unexpected phase.expects t.found))

/-- The end of a clause: a comma that another clause follows, or the end of the list. -/
def atEnd (phase : Phase) (t : Token) : Move :=
  match phase.complete? with
  | none => phase.unexpected t
  | some query =>
    if t.kind.endsClause then
      if t.kind = .comma then .next query else .finish query
    else phase.unexpected t

/-- What a token does in the phase, with the part of the input that is taken there. -/
def turn (part : String) (t : Token) (phase : Phase) : Move :=
  match phase.fault? t with
  | some (shown, problem) => .stop (.problem shown problem)
  | none =>
    match phase.goOn? part t with
    | some phase' => .shift phase'
    | none => phase.atEnd t

end Phase

/-- What a token does to the walk in a phase. -/
def step (input : String) (phase : Phase) (t : Token) : Move :=
  match phase.takes t with
  | none => phase.turn "" t
  | some span =>
    match slice? input.toList span with
    | some part => phase.turn (String.ofList part) t
    | none => .stop (.outOfRange span)

end MediaQuery
