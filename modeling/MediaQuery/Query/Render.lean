import MediaQuery.Query.Grammar
import MediaQuery.Token.Language
import MediaQuery.Token.Lexer

/-!
# Rendering — query lists as texts

Every part of a query has one place in its text: hacks stand at the media type as they are, `not `
before it, each test after it with ` and ` before, and commas between clauses. A modifier is put
back before its feature with a hyphen.

The parts of a query that is read from a text are not any strings (`Query.WellFormed`). And two
changes of a text keep what it says: making ASCII capitals small, and putting one space between any
two tokens. A query changes with the text it was read from, in its strings alone (`Query.lower`,
`Query.respace`).
-/

namespace MediaQuery

/-! ## The text of a list -/

/-- A modifier as the beginning of a name. -/
def Modifier.lead : Option Modifier → List Char
  | none => []
  | some modifier => modifier.word.toList ++ ['-']

/-- The value of a test with the colon before it. -/
def Expression.renderValue : Option String → List Char
  | none => []
  | some value => ':' :: ' ' :: value.toList

/-- The text of a test. -/
def Expression.render (e : Expression) : List Char :=
  '(' :: (Modifier.lead e.modifier ++ e.feature.toList ++ Expression.renderValue e.value ++ [')'])

/-- The text of a clause. -/
def Query.render (q : Query) : List Char :=
  q.preTypeHack.toList ++ (if q.inverse then ['n', 'o', 't', ' '] else []) ++ q.mediaType.toList ++
    q.postTypeHack.toList ++ q.expressions.flatMap fun e => [' ', 'a', 'n', 'd', ' '] ++ e.render

/-- The text of a query list. -/
def QueryList.render (l : QueryList) : String :=
  String.ofList ([','].intercalate (l.map Query.render))

/-! ## Well-formed queries

The media type is a name, a hack is a hack with blanks on one side, a feature goes with its
modifier, and a value is a text that reads as a value by itself.
-/

/-- The text is blanks only. -/
def AreBlanks (cs : List Char) : Prop :=
  ∀ c ∈ cs, isBlank c = true

/-- Nothing, or a hack and the blanks between it and what follows. -/
def IsPreHackText (s : String) : Prop :=
  s = "" ∨ ∃ hack gap, s.toList = hack ++ gap ∧ IsHack hack ∧ AreBlanks gap

/-- Nothing, or a hack and the blanks between it and the media type, the first of which is ASCII
because any other would go on with the type. -/
def IsPostHackText (s : String) : Prop :=
  s = "" ∨ ∃ gap hack, s.toList = gap ++ hack ∧ IsHack hack ∧ AreBlanks gap ∧
    ∀ c ∈ gap.head?, c.toNat < 0x80

/-- The text reads as a value by itself, from its first character to its last. -/
def IsValueText (s : String) : Prop :=
  ∃ value, tokenize s = value ++ [Token.endAt (byteLength s.toList)] ∧ IsValue value ∧
    (∀ first ∈ value.head?, first.span.start = 0) ∧
      ∀ last ∈ value.getLast?, last.span.stop = byteLength s.toList

/-- The name of a feature goes with the modifier: without one it is a name in which none is found,
and with one it is any end of a word that is more than hyphens. -/
def IsFeature (feature : String) : Option Modifier → Prop
  | none => IsName feature.toList ∧ (splitModifier feature).1 = none
  | some _ => (∀ c ∈ feature.toList, isNameChar c = true) ∧ ∃ c ∈ feature.toList, c ≠ '-'

/-- A text can say the test. -/
structure Expression.WellFormed (e : Expression) : Prop where
  feature : IsFeature e.feature e.modifier
  bound : e.modifier.isSome → e.value.isSome
  value : ∀ v ∈ e.value, IsValueText v

/-- A text can say the query. -/
structure Query.WellFormed (q : Query) : Prop where
  preTypeHack : IsPreHackText q.preTypeHack
  mediaType : IsName q.mediaType.toList
  postTypeHack : IsPostHackText q.postTypeHack
  expressions : ∀ e ∈ q.expressions, e.WellFormed

/-! ## Small letters -/

/-- A test with its strings in small letters. -/
def Expression.lower (e : Expression) : Expression :=
  ⟨e.modifier, lowerText e.feature, e.value.map lowerText⟩

/-- A query with its strings in small letters. -/
def Query.lower (q : Query) : Query :=
  ⟨q.inverse, lowerText q.preTypeHack, lowerText q.mediaType, lowerText q.postTypeHack,
    q.expressions.map Expression.lower⟩

/-! ## Single spaces -/

/-- The text of each token, with one space between any two. -/
def respace (s : String) : String :=
  " ".intercalate (((tokenize s).filter (·.kind != .eof)).map Token.text)

/-- A test with its value respaced. -/
def Expression.respace (e : Expression) : Expression :=
  { e with value := e.value.map MediaQuery.respace }

/-- A query with its values respaced, and a space between each hack and its media type. -/
def Query.respace (q : Query) : Query :=
  { q with
    preTypeHack := if q.preTypeHack = "" then "" else MediaQuery.respace q.preTypeHack ++ " "
    postTypeHack := if q.postTypeHack = "" then "" else " " ++ MediaQuery.respace q.postTypeHack
    expressions := q.expressions.map Expression.respace }

end MediaQuery
