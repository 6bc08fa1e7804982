import MediaQuery.Query.Phase

/-!
# The grammar — which token lists are query lists, and what they say

    list    = query ( "," query )*
    query   = [hack] [not | only] identifier [hack] ( and test )*
            | test ( and test )*
    test    = "(" identifier [ ":" value ] ")"
    value   = ( identifier | number | number "/" number ) [hack]

The numbers of a fraction have no unit, and a test whose name makes its value a bound has a value.
The relations below derive a token list together with what it denotes. They are indexed by the
input, of which hacks and values are parts.
-/

namespace MediaQuery

/-! ## Values -/

/-- A value without a hack. -/
inductive IsOperand : List Token → Prop where
  | word {t : Token} : t.kind = .identifier → IsOperand [t]
  | number {t : Token} : t.kind = .number → IsOperand [t]
  | fraction {numerator slash denominator : Token} :
      numerator.kind = .number → slash.kind = .slash → denominator.kind = .number →
        hasUnit numerator.text = false → hasUnit denominator.text = false →
          IsOperand [numerator, slash, denominator]

/-- A value, with or without a hack. -/
inductive IsValue : List Token → Prop where
  | plain {operand : List Token} : IsOperand operand → IsValue operand
  | hacked {operand : List Token} {hack : Token} :
      IsOperand operand → hack.kind = .hack → IsValue (operand ++ [hack])

theorem IsOperand.ne_nil {operand : List Token} (h : IsOperand operand) : operand ≠ [] := by
  cases h <;> exact List.cons_ne_nil _ _

theorem IsValue.ne_nil {value : List Token} (h : IsValue value) : value ≠ [] := by
  cases h with
  | plain hoperand => exact hoperand.ne_nil
  | hacked => exact List.append_ne_nil_of_right_ne_nil _ (List.cons_ne_nil _ _)

/-- The text is what stands in the input from the first of the tokens to the last. -/
def Spells (input : String) (tokens : List Token) (text : String) : Prop :=
  ∃ first ∈ tokens.head?, ∃ last ∈ tokens.getLast?,
    IsPart input first.span.start last.span.stop text

/-! ## Tests -/

/-- A test and what it denotes. -/
inductive IsTest (input : String) : List Token → Expression → Prop where
  | bare {openParen name closeParen : Token} {feature : String} :
      openParen.kind = .leftParen → name.kind = .identifier → closeParen.kind = .rightParen →
        splitModifier name.text = (none, feature) →
          IsTest input [openParen, name, closeParen] ⟨none, feature, none⟩
  | valued {openParen name colon closeParen : Token} {value : List Token}
      {modifier : Option Modifier} {feature text : String} :
      openParen.kind = .leftParen → name.kind = .identifier → colon.kind = .colon →
        IsValue value → closeParen.kind = .rightParen →
          splitModifier name.text = (modifier, feature) → Spells input value text →
            IsTest input (openParen :: name :: colon :: (value ++ [closeParen]))
              ⟨modifier, feature, some text⟩

/-- Tests with `and` before each, and what they denote. -/
inductive AreTests (input : String) : List Token → List Expression → Prop where
  | none : AreTests input [] []
  | more {conjunction : Token} {test rest : List Token} {e : Expression} {es : List Expression} :
      conjunction.kind = .and → IsTest input test e → AreTests input rest es →
        AreTests input (conjunction :: (test ++ rest)) (e :: es)

/-! ## Clauses -/

/-- The hack before the media type, and the text of it up to the token that follows. -/
inductive IsPreHack (input : String) (next : Token) : List Token → String → Prop where
  | none : IsPreHack input next [] ""
  | hack {t : Token} {text : String} :
      t.kind = .hack → IsPart input t.span.start next.span.start text →
        IsPreHack input next [t] text

/-- The keyword before the media type, and whether it inverts the query. -/
inductive IsKeyword : List Token → Bool → Prop where
  | none : IsKeyword [] false
  | not {t : Token} : t.kind = .not → IsKeyword [t] true
  | only {t : Token} : t.kind = .only → IsKeyword [t] false

/-- The hack after the media type, and the text of it from the end of the type. -/
inductive IsPostHack (input : String) (type : Token) : List Token → String → Prop where
  | none : IsPostHack input type [] ""
  | hack {t : Token} {text : String} :
      t.kind = .hack → IsPart input type.span.stop t.span.stop text →
        IsPostHack input type [t] text

/-- A clause and the query that it denotes. -/
inductive IsClause (input : String) : List Token → Query → Prop where
  | typed {type next : Token} {hack keyword postHack tests : List Token} {pre post : String}
      {inverse : Bool} {es : List Expression} :
      type.kind = .identifier → next ∈ (keyword ++ [type]).head? → IsPreHack input next hack pre →
        IsKeyword keyword inverse → IsPostHack input type postHack post →
          AreTests input tests es →
            IsClause input (hack ++ keyword ++ type :: (postHack ++ tests))
              ⟨inverse, pre, type.text, post, es⟩
  | untyped {test tests : List Token} {e : Expression} {es : List Expression} :
      IsTest input test e → AreTests input tests es →
        IsClause input (test ++ tests) { mediaType := "all", expressions := e :: es }

/-- Clauses with commas between them, and the query list that they denote. -/
inductive IsQueryList (input : String) : List Token → QueryList → Prop where
  | one {clause : List Token} {q : Query} : IsClause input clause q → IsQueryList input clause [q]
  | more {clause rest : List Token} {comma : Token} {q : Query} {l : QueryList} :
      IsClause input clause q → comma.kind = .comma → IsQueryList input rest l →
        IsQueryList input (clause ++ comma :: rest) (q :: l)

end MediaQuery
