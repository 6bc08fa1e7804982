import MediaQuery.Text.Character

/-!
# Media queries — what a query list says

A media query list is a list of queries, one for each clause between commas. A query names a media
type, perhaps inverted, and the feature expressions that must hold with it. Names and values are
kept as they were written.

A feature name may say that its value is a bound: `min-width`, `max-height`. The word before the
first hyphen is a modifier if it is `min` or `max` in any case and something other than hyphens
follows; the feature is what follows (`leadingModifier?`). Behind a vendor's prefix, as in
`-webkit-min-device-pixel-ratio`, the modifier is recognised too, but the name is kept whole
(`vendorModifier?`).
-/

namespace MediaQuery

/-! ## Modifiers -/

/-- Which bound a feature's value is. -/
inductive Modifier where
  | min
  | max
  deriving DecidableEq, Repr

namespace Modifier

/-- The word that stands for the modifier. -/
def word : Modifier → String
  | .min => "min"
  | .max => "max"

/-- The modifier that a word stands for, in any case. -/
def ofWord? (cs : List Char) : Option Modifier :=
  if isWord ['m', 'i', 'n'] cs then some .min
  else if isWord ['m', 'a', 'x'] cs then some .max
  else none

end Modifier

/-- A text cut at its first hyphen, which is in neither part. -/
def cutHyphen? (cs : List Char) : Option (List Char × List Char) :=
  match cs.dropWhile (· != '-') with
  | [] => none
  | _ :: rest => some (cs.takeWhile (· != '-'), rest)

/-- The modifier that begins a name and the feature that follows its hyphen. The feature is more
than hyphens. -/
def leadingModifier? (name : List Char) : Option (Modifier × List Char) :=
  (cutHyphen? name).bind fun (word, feature) =>
    if feature.all (· == '-') then none
    else (Modifier.ofWord? word).map fun modifier => (modifier, feature)

/-- The modifier that follows a vendor's prefix: a hyphen, the vendor and a hyphen. -/
def vendorModifier? : List Char → Option Modifier
  | '-' :: name =>
    (cutHyphen? name).bind fun (vendor, rest) =>
      if vendor.isEmpty then none
      else (leadingModifier? rest).map Prod.fst
  | _ => none

/-- The modifier in a name, and the feature that the name then means. -/
def splitModifier (name : String) : Option Modifier × String :=
  match leadingModifier? name.toList with
  | some (modifier, feature) => (some modifier, String.ofList feature)
  | none => (vendorModifier? name.toList, name)

/-! ## Queries -/

/-- A test of a feature in parentheses: `(min-width: 48em)`, `(color)`. -/
structure Expression where
  /-- whether the value is a bound, and which -/
  modifier : Option Modifier
  /-- the name of the feature, without a modifier that began it -/
  feature : String
  /-- the value as written, and none in a bare test -/
  value : Option String
  deriving DecidableEq, Repr

/-- The test gives no value. -/
def Expression.isBare (e : Expression) : Bool :=
  e.value.isNone

/-- One clause of a query list: `not print`, `screen and (color)`. -/
structure Query where
  /-- the clause began with `not` -/
  inverse : Bool := false
  /-- the hack before the media type, as written up to the next token -/
  preTypeHack : String := ""
  /-- the media type as written, or `all` where the clause names none -/
  mediaType : String := ""
  /-- the hack after the media type, with the blanks before it -/
  postTypeHack : String := ""
  /-- the tests that go with the type, in order -/
  expressions : List Expression := []
  deriving DecidableEq, Repr

namespace Query

/-- The query tests a feature. -/
def hasExpressions (q : Query) : Bool :=
  !q.expressions.isEmpty

/-- The query with one more test at its end. -/
def add (q : Query) (e : Expression) : Query :=
  { q with expressions := q.expressions ++ [e] }

end Query

/-- A list of queries, any of which may match. -/
abbrev QueryList := List Query

namespace QueryList

/-- The media types of the queries, in order. -/
def mediaTypes (l : QueryList) : List String :=
  l.map Query.mediaType

/-- The features that the queries test, in order. -/
def features (l : QueryList) : List String :=
  l.flatMap fun q => q.expressions.map Expression.feature

/-- The queries from one index up to another; an index past the end means the end. -/
def window (l : QueryList) (first last : Nat) : QueryList :=
  (l.take last).drop first

end QueryList

end MediaQuery
