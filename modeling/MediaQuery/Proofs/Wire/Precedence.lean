import Mathlib
import MediaQuery.Proofs.Wire.Accepted
import MediaQuery.Wire.Faults

/-!
# Precedence — which of several errors is reported

A structure is read as a chain of outcomes, and the error of a chain is the first error in it
(`error?_bind`). The fields that are there come first in that chain, in the order of their names,
and the demands that a field be there come last, in the order of the structure; so the error of an
object is what the two tables give in turn (`error?_ofMembers`). Names in a table are sorted, which
turns a place in the table into a comparison of names (`firstFault?_eq_some_iff`). Members that are
no fields are never looked up.
-/

namespace MediaQuery

section Outcomes

variable {α β : Type} {x : Decoded α} {e : DecodeError}

theorem error?_eq_some_iff : x.error? = some e ↔ x = .error e := by
  cases x with
  | error e' => simp only [Decoded.error?, Option.some.injEq, Except.error.injEq]
  | ok a => simp only [Decoded.error?, reduceCtorEq]

theorem error?_eq_none_iff : x.error? = none ↔ ∃ a, x = .ok a := by
  cases x with
  | error e => simp only [Decoded.error?, reduceCtorEq, exists_false]
  | ok a => simp only [Decoded.error?, Except.ok.injEq, exists_eq']

/-- **The error of a chain is the first in it.** What follows has an error of its own only where it
is reached. -/
theorem error?_bind {f : α → Decoded β} {rest : Option DecodeError}
    (h : ∀ a, x = .ok a → (f a).error? = rest) : (x >>= f).error? = x.error?.or rest := by
  cases x with
  | error e' => rfl
  | ok a => exact (h a rfl).trans Option.none_or.symm

theorem error?_map {f : α → β} : Decoded.error? (x.map f) = x.error? := by
  cases x <;> rfl

theorem error?_bind_pure {f : α → β} :
    Decoded.error? (x >>= fun a => pure (f a)) = x.error? := by
  cases x <;> rfl

end Outcomes

/-! ## Single fields -/

/-- The object must have a member for the field and has none. -/
def FieldRule.IsMissing (members : List (String × Json)) (rule : FieldRule) : Prop :=
  rule.required = true ∧ Json.member? members rule.name = none

theorem missing?_eq_some_iff {members : List (String × Json)} {rule : FieldRule}
    {e : DecodeError} :
    rule.missing? members = some e ↔ rule.IsMissing members ∧ .missingField rule.name = e := by
  simp only [FieldRule.missing?, FieldRule.IsMissing, Bool.and_eq_true, Option.isNone_iff_eq_none,
    Option.ite_none_right_eq_some, Option.some.injEq]

theorem missing?_eq_none_iff {members : List (String × Json)} {rule : FieldRule} :
    rule.missing? members = none ↔ ¬ rule.IsMissing members := by
  simp only [FieldRule.missing?, FieldRule.IsMissing, Bool.and_eq_true, Option.isNone_iff_eq_none,
    ite_eq_right_iff, reduceCtorEq, imp_false]

namespace Json

section Fields

variable {α : Type} {members : List (String × Json)} {read : Json → Decoded α} {o : Option α}

theorem error?_field? (rule : FieldRule) (h : rule.refusal? = fun v => (read v).error?) :
    (field? members rule.name read).error? = rule.fault? members := by
  rw [FieldRule.fault?, h, field?]
  cases member? members rule.name with
  | none => rfl
  | some v => exact error?_map

/-- A field is read as nothing only where the object has no member for it. -/
theorem isNone_of_field? {name : String} (h : field? members name read = .ok o) :
    o.isNone = (member? members name).isNone := by
  unfold field? at h
  split at h
  · next hmember =>
    cases h
    rw [hmember]
    rfl
  · next v hmember =>
    obtain ⟨a, -, rfl⟩ := map_eq_ok.mp h
    rw [hmember]
    rfl

theorem error?_require (rule : FieldRule) (hrequired : rule.required = true)
    (ho : o.isNone = (member? members rule.name).isNone) :
    (require rule.name o).error? = rule.missing? members := by
  rw [FieldRule.missing?, hrequired, Bool.true_and, ← ho]
  cases o <;> rfl

end Fields

end Json

/-! ## Chains of fields -/

theorem findSome?_cons_eq_or {α β : Type} (f : α → Option β) (a : α) (l : List α) :
    (a :: l).findSome? f = (f a).or (l.findSome? f) := by
  rw [List.findSome?_cons]
  cases f a <;> rfl

/-- The error of a test is the first fault in the chain of its fields. -/
theorem Expression.error?_ofMembers (members : List (String × Json)) :
    (Expression.ofMembers members).error? =
      firstFault? Expression.rulesByName Expression.rulesByPlace members := by
  have hvalue : valueRule.missing? members = none := rfl
  simp only [firstFault?, rulesByName, rulesByPlace, findSome?_cons_eq_or, List.findSome?_nil,
    Option.or_assoc, Option.or_none, hvalue]
  rw [← Json.error?_field? (.string "feature") rfl, ← Json.error?_field? modifierRule rfl,
    ← Json.error?_field? valueRule rfl]
  refine error?_bind fun feature hfeature => error?_bind fun modifier hmodifier =>
    error?_bind fun value _ => ?_
  rw [← Json.error?_require modifierRule rfl (Json.isNone_of_field? hmodifier),
    ← Json.error?_require (.string "feature") rfl (Json.isNone_of_field? hfeature)]
  exact error?_bind fun _ _ => error?_bind_pure

/-- The error of a query is the first fault in the chain of its fields. -/
theorem Query.error?_ofMembers (members : List (String × Json)) :
    (Query.ofMembers members).error? =
      firstFault? Query.rulesByName Query.rulesByPlace members := by
  simp only [firstFault?, rulesByName, rulesByPlace, findSome?_cons_eq_or, List.findSome?_nil,
    Option.or_assoc, Option.or_none]
  rw [← Json.error?_field? expressionsRule rfl, ← Json.error?_field? inverseRule rfl,
    ← Json.error?_field? (.string "postTypeHack") rfl,
    ← Json.error?_field? (.string "preTypeHack") rfl, ← Json.error?_field? (.string "type") rfl]
  refine error?_bind fun expressions hexpressions => error?_bind fun inverse hinverse =>
    error?_bind fun post hpost => error?_bind fun pre hpre => error?_bind fun type htype => ?_
  rw [← Json.error?_require inverseRule rfl (Json.isNone_of_field? hinverse),
    ← Json.error?_require (.string "preTypeHack") rfl (Json.isNone_of_field? hpre),
    ← Json.error?_require (.string "type") rfl (Json.isNone_of_field? htype),
    ← Json.error?_require (.string "postTypeHack") rfl (Json.isNone_of_field? hpost),
    ← Json.error?_require expressionsRule rfl (Json.isNone_of_field? hexpressions)]
  exact error?_bind fun _ _ => error?_bind fun _ _ => error?_bind fun _ _ => error?_bind fun _ _ =>
    error?_bind_pure

/-! ## Members that are no fields -/

/-- The members of an object that are for one of the fields. -/
def fieldMembers (rules : List FieldRule) (members : List (String × Json)) :
    List (String × Json) :=
  members.filter fun member => rules.any fun rule => rule.name == member.1

theorem member?_fieldMembers {rules : List FieldRule} {rule : FieldRule} (h : rule ∈ rules)
    (members : List (String × Json)) :
    Json.member? (fieldMembers rules members) rule.name = Json.member? members rule.name := by
  have hkept : ∀ member : String × Json, ((rules.any fun r => r.name == member.1) = true ∧
      (member.1 == rule.name) = true) ↔ (member.1 == rule.name) = true := by
    refine fun member => and_iff_right_of_imp fun hname => List.any_eq_true.mpr ⟨rule, h, ?_⟩
    exact beq_iff_eq.mpr (beq_iff_eq.mp hname).symm
  simp only [Json.member?, fieldMembers, ← List.filter_reverse, List.find?_filter,
    Bool.decide_eq_true, hkept]

/-- Members with the same fields have the same values for them. -/
theorem member?_congr {rules : List FieldRule} {members members' : List (String × Json)}
    (h : fieldMembers rules members = fieldMembers rules members') :
    ∀ rule ∈ rules, Json.member? members rule.name = Json.member? members' rule.name := by
  intro rule hrule
  rw [← member?_fieldMembers hrule members, h, member?_fieldMembers hrule]

theorem Json.field?_congr {α : Type} {members members' : List (String × Json)} {name : String}
    {read : Json → Decoded α} (h : member? members name = member? members' name) :
    field? members name read = field? members' name read := by
  rw [field?, field?, h]

theorem Expression.ofMembers_congr {members members' : List (String × Json)}
    (h : ∀ rule ∈ rulesByName,
      Json.member? members rule.name = Json.member? members' rule.name) :
    ofMembers members = ofMembers members' := by
  simp only [rulesByName, List.forall_mem_cons, FieldRule.string, modifierRule, valueRule] at h
  obtain ⟨hfeature, hmodifier, hvalue, -⟩ := h
  rw [ofMembers, ofMembers, Json.field?_congr hfeature, Json.field?_congr hmodifier,
    Json.field?_congr hvalue]

theorem Query.ofMembers_congr {members members' : List (String × Json)}
    (h : ∀ rule ∈ rulesByName,
      Json.member? members rule.name = Json.member? members' rule.name) :
    ofMembers members = ofMembers members' := by
  simp only [rulesByName, List.forall_mem_cons, FieldRule.string, inverseRule,
    expressionsRule] at h
  obtain ⟨hexpressions, hinverse, hpost, hpre, htype, -⟩ := h
  rw [ofMembers, ofMembers, Json.field?_congr hexpressions, Json.field?_congr hinverse,
    Json.field?_congr hpost, Json.field?_congr hpre, Json.field?_congr htype]

/-! ## The first fault -/

/-- The error that an object has: what the field with the first name of all those that refuse their
member says of it; or, where none does, the first field in the order of the structure that is
missing. -/
inductive FirstFault (byName byPlace : List FieldRule) (members : List (String × Json)) :
    DecodeError → Prop
  | refused {rule : FieldRule} {e : DecodeError} :
      rule ∈ byName → rule.fault? members = some e →
        (∀ r ∈ byName, r.name < rule.name → r.fault? members = none) →
          FirstFault byName byPlace members e
  | missing {front back : List FieldRule} {rule : FieldRule} :
      (∀ r ∈ byName, r.fault? members = none) → byPlace = front ++ rule :: back →
        (∀ r ∈ front, ¬ r.IsMissing members) → rule.IsMissing members →
          FirstFault byName byPlace members (.missingField rule.name)

section Faults

variable {byName byPlace : List FieldRule} {members : List (String × Json)} {e : DecodeError}

theorem findSome?_fault?_iff (hsorted : byName.Pairwise fun r s => r.name < s.name) :
    byName.findSome? (·.fault? members) = some e ↔
      ∃ rule ∈ byName, rule.fault? members = some e ∧
        ∀ r ∈ byName, r.name < rule.name → r.fault? members = none := by
  rw [List.findSome?_eq_some_iff]
  constructor
  · rintro ⟨front, rule, back, rfl, hfault, hfront⟩
    refine ⟨rule, List.mem_append_right _ List.mem_cons_self, hfault, fun r hr hlt => ?_⟩
    have hback := (List.pairwise_cons.mp (List.pairwise_append.mp hsorted).2.1).1
    rcases List.mem_append.mp hr with hr | hr
    · exact hfront r hr
    · rcases List.mem_cons.mp hr with rfl | hr
      · exact absurd hlt (lt_irrefl _)
      · exact absurd hlt (lt_asymm (hback r hr))
  · rintro ⟨rule, hrule, hfault, hearlier⟩
    obtain ⟨front, back, rfl⟩ := List.append_of_mem hrule
    have hfront := (List.pairwise_append.mp hsorted).2.2
    exact ⟨front, rule, back, rfl, hfault, fun r hr => hearlier r (List.mem_append_left _ hr)
      (hfront r hr rule List.mem_cons_self)⟩

theorem findSome?_missing?_iff :
    byPlace.findSome? (·.missing? members) = some e ↔
      ∃ front rule back, byPlace = front ++ rule :: back ∧ (∀ r ∈ front, ¬ r.IsMissing members) ∧
        rule.IsMissing members ∧ .missingField rule.name = e := by
  simp only [List.findSome?_eq_some_iff, missing?_eq_some_iff, missing?_eq_none_iff]
  constructor
  · rintro ⟨front, rule, back, hplace, ⟨hmissing, he⟩, hfront⟩
    exact ⟨front, rule, back, hplace, hfront, hmissing, he⟩
  · rintro ⟨front, rule, back, hplace, hfront, hmissing, he⟩
    exact ⟨front, rule, back, hplace, ⟨hmissing, he⟩, hfront⟩

/-- **The two tables give the first fault**, where the first of them is in the order of names. -/
theorem firstFault?_eq_some_iff (hsorted : byName.Pairwise fun r s => r.name < s.name) :
    firstFault? byName byPlace members = some e ↔ FirstFault byName byPlace members e := by
  rw [firstFault?, Option.or_eq_some_iff, findSome?_fault?_iff hsorted, List.findSome?_eq_none_iff,
    findSome?_missing?_iff]
  constructor
  · rintro (⟨rule, hrule, hfault, hearlier⟩ |
      ⟨hnone, front, rule, back, hplace, hfront, hmissing, rfl⟩)
    · exact .refused hrule hfault hearlier
    · exact .missing hnone hplace hfront hmissing
  · intro h
    cases h with
    | refused hrule hfault hearlier => exact .inl ⟨_, hrule, hfault, hearlier⟩
    | missing hnone hplace hfront hmissing =>
      exact .inr ⟨hnone, _, _, _, hplace, hfront, hmissing, rfl⟩

end Faults

/-! ## The first item -/

section Items

variable {α : Type} {read : Json → Decoded α} {items : List Json} {e : DecodeError}

/-- The error is that of the first item that is refused. -/
def FirstRefused (read : Json → Decoded α) (items : List Json) (e : DecodeError) : Prop :=
  ∃ front v back, items = front ++ v :: back ∧ (∀ w ∈ front, ∃ a, read w = .ok a) ∧
    read v = .error e

theorem error?_mapM : (items.mapM read).error? = items.findSome? fun v => (read v).error? := by
  induction items with
  | nil => rfl
  | cons v items ih =>
    rw [List.mapM_cons, findSome?_cons_eq_or, ← ih]
    exact error?_bind fun a _ => error?_bind_pure

theorem asListOf_eq_error_iff :
    (Json.array items).asListOf read = .error e ↔ FirstRefused read items e := by
  rw [Json.asListOf, ← error?_eq_some_iff, error?_mapM, List.findSome?_eq_some_iff]
  simp only [error?_eq_some_iff, error?_eq_none_iff]
  constructor
  · rintro ⟨front, v, back, hitems, hv, hfront⟩
    exact ⟨front, v, back, hitems, hfront, hv⟩
  · rintro ⟨front, v, back, hitems, hfront, hv⟩
    exact ⟨front, v, back, hitems, hv, hfront⟩

end Items

/-! ## Structures -/

/-- How an object is read as a structure with these fields, in the order of their names and in that
of the structure. -/
structure Precedence {α : Type} (read : Json → Decoded α) (byName byPlace : List FieldRule) :
    Prop where
  /-- members that are no fields do not count -/
  fields : ∀ members members', fieldMembers byName members = fieldMembers byName members' →
    read (.object members) = read (.object members')
  /-- the object is accepted if no field is refused and none is missing -/
  ok : ∀ members, (∃ a, read (.object members) = .ok a) ↔
    (∀ r ∈ byName, r.fault? members = none) ∧ ∀ r ∈ byPlace, ¬ r.IsMissing members
  /-- otherwise the error is the first fault -/
  error : ∀ members e, read (.object members) = .error e ↔ FirstFault byName byPlace members e

/-- The precedence follows from the error that the tables give, for a reader that looks up nothing
but fields. -/
theorem Precedence.of_error? {α : Type} {read : Json → Decoded α} {byName byPlace : List FieldRule}
    (hsorted : byName.Pairwise fun r s => r.name < s.name)
    (hcongr : ∀ members members', (∀ rule ∈ byName,
      Json.member? members rule.name = Json.member? members' rule.name) →
        read (.object members) = read (.object members'))
    (herror : ∀ members, (read (.object members)).error? = firstFault? byName byPlace members) :
    Precedence read byName byPlace where
  fields members members' h := hcongr members members' (member?_congr h)
  ok members := by
    rw [← error?_eq_none_iff, herror, firstFault?, Option.or_eq_none_iff,
      List.findSome?_eq_none_iff, List.findSome?_eq_none_iff]
    simp only [missing?_eq_none_iff]
  error members e := by
    rw [← error?_eq_some_iff, herror, firstFault?_eq_some_iff hsorted]

theorem precedence_expression :
    Precedence Expression.ofJson Expression.rulesByName Expression.rulesByPlace :=
  .of_error? (by decide) (fun _ _ => Expression.ofMembers_congr) Expression.error?_ofMembers

theorem precedence_query : Precedence Query.ofJson Query.rulesByName Query.rulesByPlace :=
  .of_error? (by decide) (fun _ _ => Query.ofMembers_congr) Query.error?_ofMembers

/-- The names of the fields that the structure cannot be without. -/
def requiredNames (rules : List FieldRule) : List String :=
  (rules.filter (·.required)).map (·.name)

/-- **Which of several errors is reported.** The error of an object is what the first refused field
says of its member, in the order of names, which is that of their bytes; only where no field is
refused is it the first missing field, in the order of the structure. Members that are no fields
change nothing. In an array of queries or of tests it is the error of the first item that is
refused. -/
theorem decode_precedence :
    Precedence Query.ofJson Query.rulesByName Query.rulesByPlace ∧
    requiredNames Query.rulesByPlace =
      ["inverse", "preTypeHack", "type", "postTypeHack", "expressions"] ∧
    Precedence Expression.ofJson Expression.rulesByName Expression.rulesByPlace ∧
    requiredNames Expression.rulesByPlace = ["modifier", "feature"] ∧
    (∀ items e, QueryList.ofJson (.array items) = .error e ↔ FirstRefused Query.ofJson items e) ∧
    ∀ items e, (Json.array items).asListOf Expression.ofJson = .error e ↔
      FirstRefused Expression.ofJson items e :=
  ⟨precedence_query, rfl, precedence_expression, rfl, fun _ _ => asListOf_eq_error_iff,
    fun _ _ => asListOf_eq_error_iff⟩

/-- A query with two refused fields and three missing ones, where the first of two refused tests
counts; that second test by itself, which has no feature either; and a query with three missing
fields and a member that is no field. -/
theorem decode_precedence_faults :
    Query.ofJson (.object [("type", .null), ("expressions", .array [.array [],
        .object [("value", .bool true), ("modifier", .string "mid")]])]) =
      .error (.invalidLength 0 (.fields .expression 3)) ∧
    Expression.ofJson (.object [("value", .bool true), ("modifier", .string "mid")]) =
      .error (.unknownModifier "mid") ∧
    Query.ofJson (.object [("x", .null), ("type", .string "tv"), ("inverse", .bool true)]) =
      .error (.missingField "preTypeHack") := by
  obtain ⟨hquery, -, hexpression, -⟩ := decode_precedence
  refine ⟨(hquery.error _ _).mpr ?_, (hexpression.error _ _).mpr ?_, ?_⟩
  · exact .refused (List.mem_cons_self : Query.expressionsRule ∈ _) (by cbv) (by decide)
  · exact .refused (List.mem_cons_of_mem _ List.mem_cons_self : Expression.modifierRule ∈ _)
      (by cbv) (by decide)
  · rw [hquery.fields _ [("type", .string "tv"), ("inverse", .bool true)] (by cbv)]
    have hfront : ∀ r ∈ [Query.inverseRule],
        ¬ r.IsMissing [("type", .string "tv"), ("inverse", .bool true)] :=
      List.forall_mem_singleton.mpr fun h => Option.some_ne_none _ h.2
    exact (hquery.error _ _).mpr (.missing (by decide) rfl hfront ⟨rfl, rfl⟩)

end MediaQuery
