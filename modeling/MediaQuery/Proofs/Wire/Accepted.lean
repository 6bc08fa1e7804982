import Mathlib
import MediaQuery.Proofs.Query.Feature
import MediaQuery.Wire.Decode
import MediaQuery.Wire.Format

/-!
# Accepted values — the readers of the wire format

Each reader succeeds on the values of one format alone, with what they stand for (`Decodes`). For
plain values and arrays this is seen from the sort of the value; a structure succeeds where each of
its fields does, and then the order in which fields are met does not matter. So an object and an
array with the same values for the fields are read alike, and reading a query list accepts exactly
its format (`decodes_queryList`).
-/

namespace MediaQuery

/-- The reader succeeds on the values of the format alone, with what they stand for. -/
def Decodes {α : Type} (read : Json → Decoded α) (format : Json → α → Prop) : Prop :=
  ∀ v a, read v = .ok a ↔ format v a

/-! ## Outcomes -/

section Outcomes

variable {α β : Type}

theorem bind_eq_ok {x : Decoded α} {f : α → Decoded β} {b : β} :
    x >>= f = .ok b ↔ ∃ a, x = .ok a ∧ f a = .ok b := by
  cases x with
  | error e =>
    constructor
    · intro h
      cases h
    · rintro ⟨a, h, -⟩
      cases h
  | ok a =>
    constructor
    · intro h
      exact ⟨a, rfl, h⟩
    · rintro ⟨a', h, hf⟩
      cases h
      exact hf

theorem map_eq_ok {x : Decoded α} {f : α → β} {b : β} :
    x.map f = .ok b ↔ ∃ a, x = .ok a ∧ f a = b := by
  cases x with
  | error e => simp only [Except.map, reduceCtorEq, false_and, exists_false]
  | ok a => simp only [Except.map, Except.ok.injEq, exists_eq_left']

theorem pure_eq_ok {a b : α} : (pure a : Decoded α) = .ok b ↔ a = b :=
  Except.ok.injEq a b ▸ Iff.rfl

end Outcomes

/-! ## Plain values -/

namespace Json

theorem decodes_asBool : Decodes asBool fun v b => v = .bool b := by
  intro v b
  cases v with
  | bool b' => simp only [asBool, Except.ok.injEq, Json.bool.injEq]
  | _ => simp only [asBool, reduceCtorEq]

theorem decodes_asString : Decodes asString fun v s => v = .string s := by
  intro v s
  cases v with
  | string s' => simp only [asString, Except.ok.injEq, Json.string.injEq]
  | _ => simp only [asString, reduceCtorEq]

/-- A value that is missing is read as null is. -/
theorem asOptionalString_getD_iff {o : Option Json} {value : Option String} :
    (o.getD .null).asOptionalString = .ok value ↔ ValueFormat o value := by
  constructor
  · intro h
    cases o with
    | none =>
      cases h
      exact .absent
    | some v =>
      cases v with
      | null =>
        cases h
        exact .null
      | string text =>
        cases h
        exact .string
      | _ => cases h
  · intro h
    cases h <;> rfl

section Lists

variable {α : Type} {read : Json → Decoded α} {format : Json → α → Prop}

theorem mapM_eq_ok_iff (h : Decodes read format) {items : List Json} {l : List α} :
    items.mapM read = .ok l ↔ List.Forall₂ format items l := by
  induction items generalizing l with
  | nil =>
    rw [List.mapM_nil, pure_eq_ok, List.forall₂_nil_left_iff, eq_comm]
  | cons v items ih =>
    rw [List.mapM_cons, List.forall₂_cons_left_iff]
    simp only [bind_eq_ok, pure_eq_ok, h v _, ih]
    constructor
    · rintro ⟨a, ha, l', hl', rfl⟩
      exact ⟨a, l', ha, hl', rfl⟩
    · rintro ⟨a, l', ha, hl', rfl⟩
      exact ⟨a, ha, l', hl', rfl⟩

theorem decodes_asListOf (h : Decodes read format) :
    Decodes (asListOf read) fun v l => ∃ items, v = .array items ∧ List.Forall₂ format items l := by
  intro v l
  cases v with
  | array items => 
    simp only [asListOf, Json.array.injEq, exists_eq_left', mapM_eq_ok_iff h]
  | _ => simp only [asListOf, reduceCtorEq, false_and, exists_false]

end Lists

end Json

/-! ## Fields -/

namespace Json

section Fields

variable {α : Type} {read : Json → Decoded α} {format : Json → α → Prop}
  {members : List (String × Json)} {name : String} {items : List Json} {a : α}

theorem field?_eq_some_iff (h : Decodes read format) :
    field? members name read = .ok (some a) ↔ ∃ v, member? members name = some v ∧ format v a := by
  cases hmember : member? members name with
  | none => simp only [field?, hmember, Except.ok.injEq, reduceCtorEq, false_and, exists_false]
  | some v =>
    simp only [field?, hmember, map_eq_ok, Option.some.injEq, exists_eq_right, exists_eq_left']
    exact h v a

/-- A field that may be missing is read as the value that it has, or as null. -/
theorem field?_join_iff {value : Option String} :
    (∃ o, field? members name asOptionalString = .ok o ∧ o.join = value) ↔
      ValueFormat (member? members name) value := by
  rw [← asOptionalString_getD_iff]
  cases hmember : member? members name with
  | none => simp only [field?, hmember, Except.ok.injEq, exists_eq_left', Option.join_none,
      Option.getD_none, asOptionalString]
  | some v =>
    simp only [field?, hmember, map_eq_ok, Option.getD_some]
    constructor
    · rintro ⟨_, ⟨a, ha, rfl⟩, rfl⟩
      exact ha
    · intro h
      exact ⟨some value, ⟨value, h, rfl⟩, rfl⟩

theorem require_eq_ok_iff {o : Option α} : require name o = .ok a ↔ o = some a := by
  cases o with
  | none => simp only [require, reduceCtorEq]
  | some a' => simp only [require, Except.ok.injEq, Option.some.injEq]

theorem item_eq_ok_iff (h : Decodes read format) {index : Nat} {wanted : WantedLength} :
    item items index wanted read = .ok a ↔ ∃ v, items[index]? = some v ∧ format v a := by
  cases hitem : items[index]? with
  | none => simp only [item, hitem, reduceCtorEq, false_and, exists_false]
  | some v =>
    simp only [item, hitem, Option.some.injEq, exists_eq_left']
    exact h v a

theorem noMore_eq_ok_iff {count : Nat} {u : Unit} :
    noMore items count = .ok u ↔ items.length ≤ count := by
  unfold noMore
  split
  · next h => simp only [h]
  · next h => simp only [h, reduceCtorEq]

end Fields

end Json

/-! ## Tests -/

theorem decodes_ofWireWord : Decodes Modifier.ofWireWord ModifierFormat := by
  intro v modifier
  constructor
  · intro h
    obtain ⟨word, hstring, hword⟩ := bind_eq_ok.mp h
    obtain rfl := (Json.decodes_asString v word).mp hstring
    split at hword
    · next hempty =>
      cases hword
      rw [String.isEmpty_iff.mp hempty]
      exact .none
    · split at hword
      · next hmodifier =>
        cases hword
        exact .word (ofWord?_eq_some_iff.mp hmodifier)
      · cases hword
  · intro h
    refine bind_eq_ok.mpr ?_
    cases h with
    | none => exact ⟨"", rfl, rfl⟩
    | @word word modifier hword =>
      refine ⟨word, rfl, ?_⟩
      have hne : word.isEmpty = false := by
        rw [Bool.eq_false_iff]
        intro hempty
        rw [String.isEmpty_iff.mp hempty] at hword
        cases modifier <;> cases hword
      simp only [hne, ofWord?_eq_some_iff.mpr hword, Bool.false_eq_true, if_false]

namespace Expression

variable {members : List (String × Json)} {items : List Json} {e : Expression}

theorem ofMembers_eq_ok_iff : ofMembers members = .ok e ↔
    (∃ m, Json.member? members "modifier" = some m ∧ ModifierFormat m e.modifier) ∧
      Json.member? members "feature" = some (.string e.feature) ∧
        ValueFormat (Json.member? members "value") e.value := by
  simp only [ofMembers, bind_eq_ok, Json.require_eq_ok_iff, pure_eq_ok]
  constructor
  · rintro ⟨_, hfeature, _, hmodifier, o, ho, modifier, rfl, feature, rfl, rfl⟩
    obtain ⟨_, hfeature, rfl⟩ := (Json.field?_eq_some_iff Json.decodes_asString).mp hfeature
    exact ⟨(Json.field?_eq_some_iff decodes_ofWireWord).mp hmodifier, hfeature,
      Json.field?_join_iff.mp ⟨o, ho, rfl⟩⟩
  · rintro ⟨hmodifier, hfeature, hvalue⟩
    obtain ⟨o, ho, hjoin⟩ := Json.field?_join_iff.mpr hvalue
    refine ⟨some e.feature, ?_, some e.modifier, ?_, o, ho, e.modifier, rfl, e.feature, rfl, ?_⟩
    · exact (Json.field?_eq_some_iff Json.decodes_asString).mpr ⟨_, hfeature, rfl⟩
    · exact (Json.field?_eq_some_iff decodes_ofWireWord).mpr hmodifier
    · rw [hjoin]

theorem ofItems_eq_ok_iff : ofItems items = .ok e ↔
    ∃ m rest, items = m :: .string e.feature :: rest ∧ rest.length ≤ 1 ∧
      ModifierFormat m e.modifier ∧ ValueFormat rest.head? e.value := by
  simp only [ofItems, bind_eq_ok, Json.item_eq_ok_iff decodes_ofWireWord,
    Json.item_eq_ok_iff Json.decodes_asString, Json.noMore_eq_ok_iff,
    Json.asOptionalString_getD_iff, pure_eq_ok]
  constructor
  · rintro ⟨modifier, ⟨m, hm, hmodifier⟩, feature, ⟨f, hf, rfl⟩, value, hvalue, -, hlength, rfl⟩
    obtain ⟨m', f', rest, rfl⟩ : ∃ m' f' rest, items = m' :: f' :: rest := by
      match items with
      | m' :: f' :: rest => exact ⟨m', f', rest, rfl⟩
    cases hm
    cases hf
    have hrest : rest.length ≤ 1 := Nat.le_of_succ_le_succ (Nat.le_of_succ_le_succ hlength)
    refine ⟨m, rest, rfl, hrest, hmodifier, ?_⟩
    rw [List.head?_eq_getElem?]
    exact hvalue
  · rintro ⟨m, rest, rfl, hlength, hmodifier, hvalue⟩
    rw [List.head?_eq_getElem?] at hvalue
    exact ⟨e.modifier, ⟨m, rfl, hmodifier⟩, e.feature, ⟨_, rfl, rfl⟩, e.value, hvalue, (),
      Nat.add_le_add_right hlength 2, rfl⟩

end Expression

theorem decodes_expression : Decodes Expression.ofJson ExpressionFormat := by
  intro v e
  constructor
  · intro h
    cases v with
    | object members =>
      obtain ⟨⟨m, hm, hmodifier⟩, hfeature, hvalue⟩ := Expression.ofMembers_eq_ok_iff.mp h
      exact .keyed hm hmodifier hfeature hvalue
    | array items =>
      obtain ⟨m, rest, rfl, hlength, hmodifier, hvalue⟩ := Expression.ofItems_eq_ok_iff.mp h
      exact .placed hmodifier hlength hvalue
    | _ => cases h
  · intro h
    cases h with
    | keyed hm hmodifier hfeature hvalue =>
      exact Expression.ofMembers_eq_ok_iff.mpr ⟨⟨_, hm, hmodifier⟩, hfeature, hvalue⟩
    | placed hmodifier hlength hvalue =>
      exact Expression.ofItems_eq_ok_iff.mpr ⟨_, _, rfl, hlength, hmodifier, hvalue⟩

/-! ## Queries -/

/-- The value stands for the tests of a query. -/
def ExpressionsFormat (v : Json) (es : List Expression) : Prop :=
  ∃ items, v = .array items ∧ List.Forall₂ ExpressionFormat items es

theorem decodes_expressions : Decodes (Json.asListOf Expression.ofJson) ExpressionsFormat :=
  Json.decodes_asListOf decodes_expression

namespace Query

variable {members : List (String × Json)} {items : List Json} {q : Query}

theorem ofMembers_eq_ok_iff : ofMembers members = .ok q ↔
    Json.member? members "inverse" = some (.bool q.inverse) ∧
      Json.member? members "preTypeHack" = some (.string q.preTypeHack) ∧
        Json.member? members "type" = some (.string q.mediaType) ∧
          Json.member? members "postTypeHack" = some (.string q.postTypeHack) ∧
            ∃ v, Json.member? members "expressions" = some v ∧
              ExpressionsFormat v q.expressions := by
  have hstring {name s : String} : Json.field? members name Json.asString = .ok (some s) ↔
      Json.member? members name = some (.string s) := by
    simp only [Json.field?_eq_some_iff Json.decodes_asString, exists_eq_right]
  have hbool {b : Bool} : Json.field? members "inverse" Json.asBool = .ok (some b) ↔
      Json.member? members "inverse" = some (.bool b) := by
    simp only [Json.field?_eq_some_iff Json.decodes_asBool, exists_eq_right]
  simp only [ofMembers, bind_eq_ok, Json.require_eq_ok_iff, pure_eq_ok]
  constructor
  · rintro ⟨_, hexpressions, _, hinverse, _, hpost, _, hpre, _, htype, inverse, rfl, pre, rfl,
      type, rfl, post, rfl, expressions, rfl, rfl⟩
    exact ⟨hbool.mp hinverse, hstring.mp hpre, hstring.mp htype, hstring.mp hpost,
      (Json.field?_eq_some_iff decodes_expressions).mp hexpressions⟩
  · rintro ⟨hinverse, hpre, htype, hpost, hexpressions⟩
    exact ⟨_, (Json.field?_eq_some_iff decodes_expressions).mpr hexpressions, _,
      hbool.mpr hinverse, _, hstring.mpr hpost, _, hstring.mpr hpre, _, hstring.mpr htype,
      _, rfl, _, rfl, _, rfl, _, rfl, _, rfl, rfl⟩

theorem ofItems_eq_ok_iff : ofItems items = .ok q ↔
    ∃ v, items = [.bool q.inverse, .string q.preTypeHack, .string q.mediaType,
        .string q.postTypeHack, v] ∧ ExpressionsFormat v q.expressions := by
  simp only [ofItems, bind_eq_ok, Json.item_eq_ok_iff Json.decodes_asBool,
    Json.item_eq_ok_iff Json.decodes_asString, Json.item_eq_ok_iff decodes_expressions,
    Json.noMore_eq_ok_iff, pure_eq_ok]
  constructor
  · rintro ⟨inverse, ⟨_, hinverse, rfl⟩, pre, ⟨_, hpre, rfl⟩, type, ⟨_, htype, rfl⟩, post,
      ⟨_, hpost, rfl⟩, expressions, ⟨v, hv, hexpressions⟩, -, hlength, rfl⟩
    obtain ⟨i₀, i₁, i₂, i₃, i₄, rest, rfl⟩ :
        ∃ i₀ i₁ i₂ i₃ i₄ rest, items = i₀ :: i₁ :: i₂ :: i₃ :: i₄ :: rest := by
      match items with
      | i₀ :: i₁ :: i₂ :: i₃ :: i₄ :: rest => exact ⟨i₀, i₁, i₂, i₃, i₄, rest, rfl⟩
    obtain rfl : rest = [] := by
      rw [← List.length_eq_zero_iff]
      simp only [List.length_cons] at hlength
      omega
    cases hinverse
    cases hpre
    cases htype
    cases hpost
    cases hv
    exact ⟨v, rfl, hexpressions⟩
  · rintro ⟨v, rfl, hexpressions⟩
    exact ⟨_, ⟨_, rfl, rfl⟩, _, ⟨_, rfl, rfl⟩, _, ⟨_, rfl, rfl⟩, _, ⟨_, rfl, rfl⟩, _,
      ⟨v, rfl, hexpressions⟩, (), Nat.le_refl 5, rfl⟩

end Query

theorem decodes_query : Decodes Query.ofJson QueryFormat := by
  intro v q
  constructor
  · intro h
    cases v with
    | object members =>
      obtain ⟨hinverse, hpre, htype, hpost, _, hv, items, rfl, hitems⟩ :=
        Query.ofMembers_eq_ok_iff.mp h
      exact .keyed hinverse hpre htype hpost hv hitems
    | array items =>
      obtain ⟨_, rfl, items, rfl, hitems⟩ := Query.ofItems_eq_ok_iff.mp h
      exact .placed hitems
    | _ => cases h
  · intro h
    cases h with
    | keyed hinverse hpre htype hpost hv hitems =>
      exact Query.ofMembers_eq_ok_iff.mpr ⟨hinverse, hpre, htype, hpost, _, hv, _, rfl, hitems⟩
    | placed hitems => exact Query.ofItems_eq_ok_iff.mpr ⟨_, rfl, _, rfl, hitems⟩

theorem decodes_queryList : Decodes QueryList.ofJson QueryListFormat := by
  intro v l
  constructor
  · intro h
    obtain ⟨items, rfl, hitems⟩ := (Json.decodes_asListOf decodes_query v l).mp h
    exact .array hitems
  · rintro ⟨hitems⟩
    exact (Json.decodes_asListOf decodes_query _ l).mpr ⟨_, rfl, hitems⟩

/-! ## Two spellings -/

section Spellings

variable {members : List (String × Json)}

/-- An object and an array with the same values for the fields stand for the same query. -/
theorem queryFormat_iff {inverse pre type post expressions : Json} {q : Query}
    (hinverse : Json.member? members "inverse" = some inverse)
    (hpre : Json.member? members "preTypeHack" = some pre)
    (htype : Json.member? members "type" = some type)
    (hpost : Json.member? members "postTypeHack" = some post)
    (hexpressions : Json.member? members "expressions" = some expressions) :
    QueryFormat (.object members) q ↔
      QueryFormat (.array [inverse, pre, type, post, expressions]) q := by
  constructor
  · intro h
    cases h with
    | keyed hinverse' hpre' htype' hpost' hexpressions' hitems =>
      cases hinverse.symm.trans hinverse'
      cases hpre.symm.trans hpre'
      cases htype.symm.trans htype'
      cases hpost.symm.trans hpost'
      cases hexpressions.symm.trans hexpressions'
      exact .placed hitems
  · intro h
    cases h with
    | placed hitems => exact .keyed hinverse hpre htype hpost hexpressions hitems

/-- So do they for a test, where the array may end before a value that is null or missing. -/
theorem expressionFormat_iff {modifier feature : Json} {rest : List Json} {e : Expression}
    (hmodifier : Json.member? members "modifier" = some modifier)
    (hfeature : Json.member? members "feature" = some feature) (hrest : rest.length ≤ 1)
    (hvalue : (Json.member? members "value").getD .null = rest.head?.getD .null) :
    ExpressionFormat (.object members) e ↔
      ExpressionFormat (.array (modifier :: feature :: rest)) e := by
  have hvalues : ValueFormat (Json.member? members "value") e.value ↔
      ValueFormat rest.head? e.value := by
    rw [← Json.asOptionalString_getD_iff, hvalue, Json.asOptionalString_getD_iff]
  constructor
  · intro h
    cases h with
    | keyed hm hmodifier' hfeature' hvalue' =>
      cases hmodifier.symm.trans hm
      cases hfeature.symm.trans hfeature'
      exact .placed hmodifier' hrest (hvalues.mp hvalue')
  · intro h
    cases h with
    | placed hmodifier' _ hvalue' =>
      exact .keyed hmodifier hmodifier' hfeature (hvalues.mpr hvalue')

end Spellings

/-- **The format that is accepted is exactly the wire format.** A value is read as a query list if
and only if it stands for that list; and an object is read as a query or as a test if and only if
the array with the same values for the fields is, where null or nothing may stand for a value that
is missing. -/
theorem decode_exact :
    (∀ v l, QueryList.ofJson v = .ok l ↔ QueryListFormat v l) ∧
    (∀ members inverse pre type post expressions q,
      Json.member? members "inverse" = some inverse →
      Json.member? members "preTypeHack" = some pre →
      Json.member? members "type" = some type →
      Json.member? members "postTypeHack" = some post →
      Json.member? members "expressions" = some expressions →
      (Query.ofJson (.object members) = .ok q ↔
        Query.ofJson (.array [inverse, pre, type, post, expressions]) = .ok q)) ∧
    ∀ members modifier feature rest e,
      Json.member? members "modifier" = some modifier →
      Json.member? members "feature" = some feature →
      rest.length ≤ 1 → (Json.member? members "value").getD .null = rest.head?.getD .null →
      (Expression.ofJson (.object members) = .ok e ↔
        Expression.ofJson (.array (modifier :: feature :: rest)) = .ok e) := by
  refine ⟨decodes_queryList, ?_, ?_⟩
  · intro members inverse pre type post expressions q hinverse hpre htype hpost hexpressions
    rw [decodes_query, decodes_query]
    exact queryFormat_iff hinverse hpre htype hpost hexpressions
  · intro members modifier feature rest e hmodifier hfeature hrest hvalue
    rw [decodes_expression, decodes_expression]
    exact expressionFormat_iff hmodifier hfeature hrest hvalue

/-- A query by places with a test by names, in capitals and with null for its value, and the same
query by names in another order; and the test by places without its last item. -/
theorem decode_exact_spellings :
    Query.ofJson (.array [.bool true, .string "", .string "tv", .string "",
        .array [.object [("value", .null), ("feature", .string "width"),
          ("modifier", .string "MIN")]]]) =
      .ok ⟨true, "", "tv", "", [⟨some .min, "width", none⟩]⟩ ∧
    Expression.ofJson (.array [.string "MIN", .string "width"]) =
      .ok ⟨some .min, "width", none⟩ := by
  constructor
  · refine (decode_exact.2.1 [("type", .string "tv"), ("preTypeHack", .string ""), ("x", .null),
      ("postTypeHack", .string ""), ("inverse", .bool true), ("expressions", .array [.object
        [("value", .null), ("feature", .string "width"), ("modifier", .string "MIN")]])]
      _ _ _ _ _ _ ?_ ?_ ?_ ?_ ?_).mp ?_ <;> cbv
  · refine (decode_exact.2.2 [("value", .null), ("feature", .string "width"),
      ("modifier", .string "MIN")] _ _ [] _ ?_ ?_ ?_ ?_).mp ?_ <;> cbv

end MediaQuery
