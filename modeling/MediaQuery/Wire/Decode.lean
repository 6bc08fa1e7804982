import MediaQuery.Query.Basic
import MediaQuery.Wire.Error

/-!
# JSON values as query lists

A query and a test are read from an object by the names of their fields, or from an array by their
places. Members that are no fields are passed over. In an object the fields that are there are read
in the order of their names, and only then is it seen which are missing, in the order in which the
structure has them; so of several faults the one met first in that double order is the error. In an
array everything is met in the order of the items.
-/

namespace MediaQuery

/-- The outcome of reading a JSON value. -/
abbrev Decoded (α : Type) : Type := Except DecodeError α

namespace Json

/-! ## Plain values -/

/-- A boolean. -/
def asBool : Json → Decoded Bool
  | .bool b => .ok b
  | v => .error (.invalidType v.summary .boolean)

/-- A string. -/
def asString : Json → Decoded String
  | .string s => .ok s
  | v => .error (.invalidType v.summary .string)

/-- A string, or none for null. -/
def asOptionalString : Json → Decoded (Option String)
  | .null => .ok none
  | v => v.asString.map some

/-- The items of an array, each read in the same way. -/
def asListOf {α : Type} (read : Json → Decoded α) : Json → Decoded (List α)
  | .array items => items.mapM read
  | v => .error (.invalidType v.summary .sequence)

/-! ## Fields of structures -/

/-- The field of a name, if the object has a member for it. -/
def field? {α : Type} (members : List (String × Json)) (name : String) (read : Json → Decoded α) :
    Decoded (Option α) :=
  match member? members name with
  | none => .ok none
  | some v => (read v).map some

/-- A field that had to be there. -/
def require {α : Type} (name : String) : Option α → Decoded α
  | none => .error (.missingField name)
  | some a => .ok a

/-- The item of an index, where an array must have one for each field of a structure. -/
def item {α : Type} (items : List Json) (index : Nat) (wanted : WantedLength)
    (read : Json → Decoded α) : Decoded α :=
  match items[index]? with
  | none => .error (.invalidLength index wanted)
  | some v => read v

/-- The array has no item past those of the fields. -/
def noMore (items : List Json) (count : Nat) : Decoded Unit :=
  if items.length ≤ count then .ok () else .error (.invalidLength items.length .fewer)

end Json

/-! ## Tests -/

/-- The modifier of a test: a word in any case, or none for the empty string. -/
def Modifier.ofWireWord (v : Json) : Decoded (Option Modifier) :=
  v.asString.bind fun word =>
    if word.isEmpty then .ok none
    else
      match Modifier.ofWord? word.toList with
      | some modifier => .ok (some modifier)
      | none => .error (.unknownModifier word)

namespace Expression

/-- A test from the members of an object. -/
def ofMembers (members : List (String × Json)) : Decoded Expression := do
  let feature ← Json.field? members "feature" Json.asString
  let modifier ← Json.field? members "modifier" Modifier.ofWireWord
  let value ← Json.field? members "value" Json.asOptionalString
  let modifier ← Json.require "modifier" modifier
  let feature ← Json.require "feature" feature
  return ⟨modifier, feature, value.join⟩

/-- A test from the items of an array, the last of which may be left out. -/
def ofItems (items : List Json) : Decoded Expression := do
  let wanted := .fields .expression 3
  let modifier ← Json.item items 0 wanted Modifier.ofWireWord
  let feature ← Json.item items 1 wanted Json.asString
  let value ← (items[2]?.getD Json.null).asOptionalString
  Json.noMore items 3
  return ⟨modifier, feature, value⟩

/-- The test that a JSON value stands for. -/
def ofJson : Json → Decoded Expression
  | .object members => ofMembers members
  | .array items => ofItems items
  | v => .error (.invalidType v.summary .expression)

end Expression

/-! ## Queries -/

namespace Query

/-- A query from the members of an object. -/
def ofMembers (members : List (String × Json)) : Decoded Query := do
  let expressions ← Json.field? members "expressions" (Json.asListOf Expression.ofJson)
  let inverse ← Json.field? members "inverse" Json.asBool
  let postTypeHack ← Json.field? members "postTypeHack" Json.asString
  let preTypeHack ← Json.field? members "preTypeHack" Json.asString
  let mediaType ← Json.field? members "type" Json.asString
  let inverse ← Json.require "inverse" inverse
  let preTypeHack ← Json.require "preTypeHack" preTypeHack
  let mediaType ← Json.require "type" mediaType
  let postTypeHack ← Json.require "postTypeHack" postTypeHack
  let expressions ← Json.require "expressions" expressions
  return ⟨inverse, preTypeHack, mediaType, postTypeHack, expressions⟩

/-- A query from the items of an array. -/
def ofItems (items : List Json) : Decoded Query := do
  let wanted := .fields .query 5
  let inverse ← Json.item items 0 wanted Json.asBool
  let preTypeHack ← Json.item items 1 wanted Json.asString
  let mediaType ← Json.item items 2 wanted Json.asString
  let postTypeHack ← Json.item items 3 wanted Json.asString
  let expressions ← Json.item items 4 wanted (Json.asListOf Expression.ofJson)
  Json.noMore items 5
  return ⟨inverse, preTypeHack, mediaType, postTypeHack, expressions⟩

/-- The query that a JSON value stands for. -/
def ofJson : Json → Decoded Query
  | .object members => ofMembers members
  | .array items => ofItems items
  | v => .error (.invalidType v.summary .query)

end Query

/-- The query list that a JSON value stands for. -/
def QueryList.ofJson : Json → Decoded QueryList :=
  Json.asListOf Query.ofJson

/-! ## Modifiers by themselves -/

namespace Modifier

/-- The modifier whose word is exactly this one. -/
def ofVariant (word : String) : Decoded Modifier :=
  if word = Modifier.min.word then .ok .min
  else if word = Modifier.max.word then .ok .max
  else .error (.unknownVariant word)

/-- The modifier that a JSON value stands for: a word, or an object with the word as its only name
and null as the value. -/
def ofJson : Json → Decoded Modifier
  | .string word => ofVariant word
  | .object members =>
    match (members.map Prod.fst).eraseDups with
    | [word] => do
      let modifier ← ofVariant word
      match (Json.member? members word).getD .null with
      | .null => return modifier
      | v => throw (.invalidType v.summary .unit)
    | _ => .error .notSingleKey
  | v => .error (.invalidType v.summary .stringOrMap)

end Modifier

end MediaQuery
