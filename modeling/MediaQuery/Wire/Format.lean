import Mathlib.Data.List.Forall2
import MediaQuery.Json.Basic
import MediaQuery.Query.Basic
import MediaQuery.Text.Character

/-!
# The wire format — which JSON values stand for which query lists

Each structure has two spellings: an object with a member for each field, and an array of the fields
in their order. The relations below say what a value stands for without an order of reading and
without errors. Members of other names may be there or not.
-/

namespace MediaQuery

/-- The value stands for the modifier of a test, or for none. -/
inductive ModifierFormat : Json → Option Modifier → Prop where
  | none : ModifierFormat (.string "") none
  | word {word : String} {modifier : Modifier} :
      lower word.toList = modifier.word.toList → ModifierFormat (.string word) (some modifier)

/-- The value, if it is there, stands for the value of a test, or for none. -/
inductive ValueFormat : Option Json → Option String → Prop where
  | absent : ValueFormat none none
  | null : ValueFormat (some .null) none
  | string {text : String} : ValueFormat (some (.string text)) (some text)

/-- The value stands for a test. -/
inductive ExpressionFormat : Json → Expression → Prop where
  | keyed {members : List (String × Json)} {m : Json} {e : Expression} :
      Json.member? members "modifier" = some m → ModifierFormat m e.modifier →
        Json.member? members "feature" = some (.string e.feature) →
          ValueFormat (Json.member? members "value") e.value →
            ExpressionFormat (.object members) e
  | placed {m : Json} {rest : List Json} {e : Expression} :
      ModifierFormat m e.modifier → rest.length ≤ 1 → ValueFormat rest.head? e.value →
        ExpressionFormat (.array (m :: .string e.feature :: rest)) e

/-- The value stands for a query. -/
inductive QueryFormat : Json → Query → Prop where
  | keyed {members : List (String × Json)} {items : List Json} {q : Query} :
      Json.member? members "inverse" = some (.bool q.inverse) →
        Json.member? members "preTypeHack" = some (.string q.preTypeHack) →
          Json.member? members "type" = some (.string q.mediaType) →
            Json.member? members "postTypeHack" = some (.string q.postTypeHack) →
              Json.member? members "expressions" = some (.array items) →
                List.Forall₂ ExpressionFormat items q.expressions →
                  QueryFormat (.object members) q
  | placed {items : List Json} {q : Query} :
      List.Forall₂ ExpressionFormat items q.expressions →
        QueryFormat
          (.array [.bool q.inverse, .string q.preTypeHack, .string q.mediaType,
            .string q.postTypeHack, .array items]) q

/-- The value stands for a query list. -/
inductive QueryListFormat : Json → QueryList → Prop where
  | array {items : List Json} {l : QueryList} :
      List.Forall₂ QueryFormat items l → QueryListFormat (.array items) l

end MediaQuery
