import MediaQuery.Wire.Decode

/-!
# Faults — which of several errors an object has

An object that stands for a structure may have several faults: members that their fields refuse and
fields that are missing. The faults of members come first, in the order of their names; then the
first missing field counts, in the order of the structure. The tables below list both orders and
give the error of each field by itself.
-/

namespace MediaQuery

/-- The error of an outcome, if it is one. -/
def Decoded.error? {α : Type} : Decoded α → Option DecodeError
  | .ok _ => none
  | .error e => some e

/-- A field of a structure, with the error that it has for a value, if it refuses it. -/
structure FieldRule where
  name : String
  refusal? : Json → Option DecodeError
  /-- the structure cannot be without it -/
  required : Bool := true

namespace FieldRule

/-- The error of the member for the field, if the object has one that the field refuses. -/
def fault? (members : List (String × Json)) (rule : FieldRule) : Option DecodeError :=
  (Json.member? members rule.name).bind rule.refusal?

/-- The error of a missing field, if the object has no member for it and must. -/
def missing? (members : List (String × Json)) (rule : FieldRule) : Option DecodeError :=
  if rule.required && (Json.member? members rule.name).isNone then
    some (.missingField rule.name)
  else none

/-- A field that is a string. -/
def string (name : String) : FieldRule :=
  { name, refusal? := fun v => v.asString.error? }

end FieldRule

/-! ## Tests -/

namespace Expression

/-- The modifier is a word for one, or empty. -/
def modifierRule : FieldRule :=
  { name := "modifier", refusal? := fun v => (Modifier.ofWireWord v).error? }

/-- The value is a string or null, and may be left out. -/
def valueRule : FieldRule :=
  { name := "value", refusal? := fun v => v.asOptionalString.error?, required := false }

/-- The fields in the order of their names. -/
def rulesByName : List FieldRule := [.string "feature", modifierRule, valueRule]

/-- The fields in the order of the structure. -/
def rulesByPlace : List FieldRule := [modifierRule, .string "feature", valueRule]

end Expression

/-! ## Queries -/

namespace Query

/-- Whether the query is inverted is a boolean. -/
def inverseRule : FieldRule :=
  { name := "inverse", refusal? := fun v => v.asBool.error? }

/-- The tests are an array of values that each stand for one. -/
def expressionsRule : FieldRule :=
  { name := "expressions", refusal? := fun v => (v.asListOf Expression.ofJson).error? }

/-- The fields in the order of their names. -/
def rulesByName : List FieldRule :=
  [expressionsRule, inverseRule, .string "postTypeHack", .string "preTypeHack",
    .string "type"]

/-- The fields in the order of the structure. -/
def rulesByPlace : List FieldRule :=
  [inverseRule, .string "preTypeHack", .string "type", .string "postTypeHack",
    expressionsRule]

end Query

/-- The error of an object that stands for a structure, if it has one. -/
def firstFault? (byName byPlace : List FieldRule) (members : List (String × Json)) :
    Option DecodeError :=
  (byName.findSome? (·.fault? members)).or (byPlace.findSome? (·.missing? members))

end MediaQuery
