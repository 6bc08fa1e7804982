import MediaQuery.Json.Basic
import MediaQuery.Text.Quoted

/-!
# Decode errors — why a JSON value is no query list

A value is refused for the first thing about it that does not fit. The error says what was found,
as far as a message shows it, and what was wanted.
-/

namespace MediaQuery

/-- What a message says of a JSON value: its content if it is plain, and its sort otherwise. -/
inductive Json.Summary where
  | null
  | boolean (b : Bool)
  | number (n : Number)
  | string (s : String)
  | sequence
  | map
  deriving DecidableEq, Repr

/-- What a message says of a value. -/
def Json.summary : Json → Json.Summary
  | .null => .null
  | .bool b => .boolean b
  | .number n => .number n
  | .string s => .string s
  | .array _ => .sequence
  | .object _ => .map

/-- How a summary is worded. -/
def Json.Summary.words : Json.Summary → String
  | .null => "null"
  | .boolean b => "boolean `" ++ toString b ++ "`"
  | .number (.integer n) => "integer `" ++ toString n ++ "`"
  | .number n => "floating point `" ++ n.text ++ "`"
  | .string s => "string " ++ quoted s
  | .sequence => "sequence"
  | .map => "map"

/-- What a value was wanted to be. -/
inductive Wanted where
  | sequence
  | string
  | boolean
  | unit
  | query
  | expression
  | stringOrMap
  deriving DecidableEq, Repr

/-- How a want is worded. -/
def Wanted.words : Wanted → String
  | .sequence => "a sequence"
  | .string => "a string"
  | .boolean => "a boolean"
  | .unit => "unit"
  | .query => "struct Query"
  | .expression => "struct Expression"
  | .stringOrMap => "string or map"

/-- How long an array was wanted to be. -/
inductive WantedLength where
  /-- one item for each of the fields of a structure -/
  | fields (of : Wanted) (count : Nat)
  /-- no more items than were used -/
  | fewer
  deriving DecidableEq, Repr

/-- How a wanted length is worded. -/
def WantedLength.words : WantedLength → String
  | .fields of count => of.words ++ " with " ++ toString count ++ " elements"
  | .fewer => "fewer elements in array"

/-- Why a JSON value was refused. -/
inductive DecodeError where
  /-- the value is of another sort -/
  | invalidType (found : Json.Summary) (wanted : Wanted)
  /-- an object has no member of a name that it must have -/
  | missingField (name : String)
  /-- an array is too short or too long -/
  | invalidLength (length : Nat) (wanted : WantedLength)
  /-- a string is no modifier, nor empty -/
  | unknownModifier (word : String)
  /-- a string is not exactly the word of a modifier -/
  | unknownVariant (word : String)
  /-- an object has no member, or more than one -/
  | notSingleKey
  deriving DecidableEq, Repr

/-- How an error is worded. -/
def DecodeError.message : DecodeError → String
  | .invalidType found wanted => "invalid type: " ++ found.words ++ ", expected " ++ wanted.words
  | .missingField name => "missing field `" ++ name ++ "`"
  | .invalidLength length wanted =>
    "invalid length " ++ toString length ++ ", expected " ++ wanted.words
  | .unknownModifier word => "unknown modifier '" ++ word ++ "'"
  | .unknownVariant word => "unknown variant `" ++ word ++ "`, expected `min` or `max`"
  | .notSingleKey => "invalid value: map, expected map with a single key"

end MediaQuery
