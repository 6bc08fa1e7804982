import MediaQuery.Json.Basic
import MediaQuery.Query.Basic

/-!
# Query lists as JSON

A query list is an array with an object for each query. A missing modifier is the empty string, so
that its member is always there; a missing value has no member at all, so that it differs from an
empty one. `QueryList.text` is the compact text, the one form in which lists are stored.
-/

namespace MediaQuery

/-- The modifier of a test as a word, which is empty if there is none. -/
def Modifier.wireWord : Option Modifier → String
  | none => ""
  | some modifier => modifier.word

/-- A modifier by itself as a JSON string. -/
def Modifier.toJson (modifier : Modifier) : Json :=
  .string modifier.word

/-- A test as a JSON object. -/
def Expression.toJson (e : Expression) : Json :=
  .object (("modifier", .string (Modifier.wireWord e.modifier)) :: ("feature", .string e.feature) ::
    (e.value.map fun value => ("value", Json.string value)).toList)

/-- A query as a JSON object. -/
def Query.toJson (q : Query) : Json :=
  .object
    [("inverse", .bool q.inverse),
     ("preTypeHack", .string q.preTypeHack),
     ("type", .string q.mediaType),
     ("postTypeHack", .string q.postTypeHack),
     ("expressions", .array (q.expressions.map Expression.toJson))]

namespace QueryList

/-- A query list as a JSON array. -/
def toJson (l : QueryList) : Json :=
  .array (l.map Query.toJson)

/-- The compact JSON text of a query list. -/
def text (l : QueryList) : String :=
  (toJson l).compact

end QueryList

end MediaQuery
