import Mathlib
import MediaQuery.Proofs.Json.ReadBack
import MediaQuery.Proofs.Wire.Accepted
import MediaQuery.Wire.Encode

/-!
# Round trips — what is written is read back

A query list is written as a value that stands for it (`queryListFormat_toJson`), whatever strings
it has, and whether or not it could have been parsed. So it is read back as it was
(`decode_toJson`). A value that was not written in this way need not be what is written for it: the
two spellings of a structure and a missing value have one that is written. But writing what was
read gives a value that is read and written as itself.

A query list is stored as the compact text of its value. The fields are any strings, with quotes,
backslashes and control characters in them, and one member of a test may be missing; still the text
can be read in one way only. The value of a list holds no number (`numberless_toJson`), so its text
is read back (`read?_text`), and lists with the same text are the same (`text_inj`).
-/

namespace MediaQuery

open Json (Numberless)

/-! ## Values -/

theorem modifierFormat_wireWord (modifier : Option Modifier) :
    ModifierFormat (.string (Modifier.wireWord modifier)) modifier := by
  cases modifier with
  | none => exact .none
  | some modifier =>
    refine .word ?_
    cases modifier <;> decide

theorem expressionFormat_toJson (e : Expression) : ExpressionFormat e.toJson e := by
  refine .keyed ?_ (modifierFormat_wireWord e.modifier) ?_ ?_
  · cases e.value <;> rfl
  · cases e.value <;> rfl
  · cases hvalue : e.value with
    | none => exact .absent
    | some value => exact .string

/-- Values that are written one by one stand for the list of what they are written for. -/
theorem forall₂_map_write {α : Type} {write : α → Json} {format : Json → α → Prop}
    (h : ∀ a, format (write a) a) (l : List α) : List.Forall₂ format (l.map write) l := by
  rw [List.forall₂_map_left_iff, List.forall₂_same]
  intro a _
  exact h a

theorem queryFormat_toJson (q : Query) : QueryFormat q.toJson q :=
  .keyed rfl rfl rfl rfl rfl (forall₂_map_write expressionFormat_toJson q.expressions)

/-- A query list is written as a value that stands for it. -/
theorem queryListFormat_toJson (l : QueryList) : QueryListFormat l.toJson l :=
  .array (forall₂_map_write queryFormat_toJson l)

/-- **Every query list is read back as it was written**; so what is written for a value that was
read is read and written as itself. -/
theorem decode_toJson :
    (∀ l, QueryList.ofJson (QueryList.toJson l) = .ok l) ∧
    ∀ v w, (QueryList.ofJson v).map QueryList.toJson = .ok w →
      (QueryList.ofJson w).map QueryList.toJson = .ok w := by
  have hback (l : QueryList) : QueryList.ofJson l.toJson = .ok l :=
    (decodes_queryList _ l).mpr (queryListFormat_toJson l)
  refine ⟨hback, ?_⟩
  intro v w h
  obtain ⟨l, -, rfl⟩ := map_eq_ok.mp h
  exact map_eq_ok.mpr ⟨l, hback l, rfl⟩

/-- A query by places, with a modifier in capitals and without a value, is written by names; what is
written is read and written as itself. -/
theorem decode_toJson_places :
    (QueryList.ofJson (.array [.object [("inverse", .bool false), ("preTypeHack", .string "\\0 "),
        ("type", .string "tv"), ("postTypeHack", .string ""), ("expressions", .array [.object
          [("modifier", .string "max"), ("feature", .string "")]])]])).map QueryList.toJson =
      .ok (.array [.object [("inverse", .bool false), ("preTypeHack", .string "\\0 "),
        ("type", .string "tv"), ("postTypeHack", .string ""), ("expressions", .array [.object
          [("modifier", .string "max"), ("feature", .string "")]])]]) := by
  refine decode_toJson.2 (.array [.array [.bool false, .string "\\0 ", .string "tv", .string "",
    .array [.array [.string "MAX", .string ""]]]]) _ ?_
  cbv

/-! ## Texts -/

theorem numberless_expression (e : Expression) : Numberless e.toJson := by
  refine .object (List.forall_mem_cons.mpr ⟨.string, List.forall_mem_cons.mpr ⟨.string, ?_⟩⟩)
  cases e.value with
  | none => exact fun _ h => absurd h List.not_mem_nil
  | some value => exact List.forall_mem_singleton.mpr .string

theorem numberless_query (q : Query) : Numberless q.toJson := by
  have hexpressions : Numberless (.array (q.expressions.map Expression.toJson)) :=
    .array (List.forall_mem_map.mpr fun e _ => numberless_expression e)
  simp only [Query.toJson]
  refine .object ?_
  simp only [List.forall_mem_cons]
  exact ⟨.bool, .string, .string, .string, hexpressions, fun _ h => absurd h List.not_mem_nil⟩

/-- The value of a query list holds no number. -/
theorem numberless_toJson (l : QueryList) : Numberless l.toJson :=
  .array (List.forall_mem_map.mpr fun q _ => numberless_query q)

/-- The text of a query list is read as the value of the list, and that as the list. -/
theorem read?_text (l : QueryList) :
    (Json.read? l.text).map QueryList.ofJson = some (.ok l) := by
  have hread : Json.read? l.text = some l.toJson := (numberless_toJson l).read?_compact
  rw [hread, Option.map_some]
  exact congrArg some ((decodes_queryList _ l).mpr (queryListFormat_toJson l))

/-- **Query lists have the same text only if they are the same**, whatever strings they hold. -/
theorem text_inj {l l' : QueryList} : l.text = l'.text ↔ l = l' := by
  constructor
  · intro h
    have hread : some (.ok l) = some (.ok l' : Decoded QueryList) :=
      calc some (.ok l) = (Json.read? l.text).map QueryList.ofJson := (read?_text l).symm
        _ = (Json.read? l'.text).map QueryList.ofJson := by rw [h]
        _ = some (.ok l') := read?_text l'
    exact Except.ok.inj (Option.some.inj hread)
  · exact congrArg QueryList.text

end MediaQuery
