import Mathlib.Computability.Language
import MediaQuery.Query.Grammar

/-!
# Shapes — the grammar as a regular language

Whether a token list is a query list depends on the kinds and the texts of its tokens, not on their
places. The grammar is written here once more, as a regular expression over pairs of a kind and a
text, with the two conditions on texts where they belong: in a fraction and in a bare test. The
relations of the grammar refine it by what a token list denotes; where the parts of the input that
they keep exist, nothing is lost (`Shape.exists_isQueryList`).
-/

namespace MediaQuery

open scoped Computability

/-- A token without its place. -/
def Token.spelling (t : Token) : Kind × String :=
  (t.kind, t.text)

namespace Shape

/-- The words of one token of the kind. -/
def mark (kind : Kind) : Language (Kind × String) :=
  {w | ∃ text, w = [(kind, text)]}

/-- The words of one number without unit. -/
def plainNumber : Language (Kind × String) :=
  {w | ∃ text, w = [(.number, text)] ∧ hasUnit text = false}

/-- The words of one name in which no modifier is found. -/
def plainName : Language (Kind × String) :=
  {w | ∃ text, w = [(.identifier, text)] ∧ (splitModifier text).1 = none}

/-- Nothing, or a word of the language. -/
def optional (language : Language (Kind × String)) : Language (Kind × String) :=
  1 + language

def operand : Language (Kind × String) :=
  mark .identifier + mark .number + plainNumber * (mark .slash * plainNumber)

def value : Language (Kind × String) :=
  operand * optional (mark .hack)

def test : Language (Kind × String) :=
  mark .leftParen * (plainName * mark .rightParen) +
    mark .leftParen * (mark .identifier * (mark .colon * (value * mark .rightParen)))

/-- Any number of tests with `and` before each. -/
def tests : Language (Kind × String) :=
  (mark .and * test)∗

def clause : Language (Kind × String) :=
  optional (mark .hack) * (optional (mark .not + mark .only) *
    (mark .identifier * (optional (mark .hack) * tests))) + test * tests

def queryList : Language (Kind × String) :=
  clause * (mark .comma * clause)∗

/-! ## Token lists with a shape -/

section Membership

variable {language other : Language (Kind × String)} {ts : List Token}

theorem mem_mul_iff : ts.map Token.spelling ∈ language * other ↔
    ∃ us vs, ts = us ++ vs ∧ us.map Token.spelling ∈ language ∧
      vs.map Token.spelling ∈ other := by
  rw [Language.mem_mul]
  constructor
  · rintro ⟨a, ha, b, hb, hab⟩
    obtain ⟨us, vs, rfl, rfl, rfl⟩ := List.map_eq_append_iff.mp hab.symm
    exact ⟨us, vs, rfl, ha, hb⟩
  · rintro ⟨us, vs, rfl, ha, hb⟩
    exact ⟨_, ha, _, hb, List.map_append.symm⟩

theorem mem_mark_iff {kind : Kind} :
    ts.map Token.spelling ∈ mark kind ↔ ∃ t, ts = [t] ∧ t.kind = kind := by
  constructor
  · rintro ⟨text, h⟩
    obtain ⟨t, rfl, ht⟩ := List.map_eq_singleton_iff.mp h
    exact ⟨t, rfl, congrArg Prod.fst ht⟩
  · rintro ⟨t, rfl, rfl⟩
    exact ⟨t.text, rfl⟩

theorem mem_plainNumber_iff : ts.map Token.spelling ∈ plainNumber ↔
    ∃ t, ts = [t] ∧ t.kind = .number ∧ hasUnit t.text = false := by
  constructor
  · rintro ⟨text, h, hunit⟩
    obtain ⟨t, rfl, ht⟩ := List.map_eq_singleton_iff.mp h
    obtain ⟨hkind, rfl⟩ := Prod.mk.inj ht
    exact ⟨t, rfl, hkind, hunit⟩
  · rintro ⟨t, rfl, hkind, hunit⟩
    exact ⟨t.text, congrArg (fun k => [(k, t.text)]) hkind, hunit⟩

theorem mem_plainName_iff : ts.map Token.spelling ∈ plainName ↔
    ∃ t, ts = [t] ∧ t.kind = .identifier ∧ (splitModifier t.text).1 = none := by
  constructor
  · rintro ⟨text, h, hmodifier⟩
    obtain ⟨t, rfl, ht⟩ := List.map_eq_singleton_iff.mp h
    obtain ⟨hkind, rfl⟩ := Prod.mk.inj ht
    exact ⟨t, rfl, hkind, hmodifier⟩
  · rintro ⟨t, rfl, hkind, hmodifier⟩
    exact ⟨t.text, congrArg (fun k => [(k, t.text)]) hkind, hmodifier⟩

theorem mem_optional_iff : ts.map Token.spelling ∈ optional language ↔
    ts = [] ∨ ts.map Token.spelling ∈ language := by
  rw [optional, Language.mem_add, Language.mem_one, List.map_eq_nil_iff]

theorem mem_kstar_iff : ts.map Token.spelling ∈ language∗ ↔
    ∃ tss : List (List Token), ts = tss.flatten ∧
      ∀ us ∈ tss, us.map Token.spelling ∈ language := by
  constructor
  · intro h
    obtain ⟨ws, hts, hws⟩ := Language.mem_kstar.mp h
    clear h
    induction ws generalizing ts with
    | nil => exact ⟨[], List.map_eq_nil_iff.mp hts, fun _ h => absurd h List.not_mem_nil⟩
    | cons w ws ih =>
      obtain ⟨us, vs, rfl, rfl, hvs⟩ := List.map_eq_append_iff.mp hts
      obtain ⟨tss, rfl, htss⟩ := ih hvs fun y hy => hws y (List.mem_cons_of_mem _ hy)
      exact ⟨us :: tss, rfl, List.forall_mem_cons.mpr ⟨hws _ List.mem_cons_self, htss⟩⟩
  · rintro ⟨tss, rfl, htss⟩
    rw [List.map_flatten]
    refine Language.join_mem_kstar fun y hy => ?_
    obtain ⟨us, hus, rfl⟩ := List.mem_map.mp hy
    exact htss us hus

end Membership

/-! ## What the grammar derives has the shape -/

section Derived

variable {input : String} {ts : List Token}

theorem mem_operand_iff : ts.map Token.spelling ∈ operand ↔ IsOperand ts := by
  simp only [operand, Language.mem_add, mem_mul_iff, mem_mark_iff, mem_plainNumber_iff]
  constructor
  · rintro ((⟨t, rfl, ht⟩ | ⟨t, rfl, ht⟩) |
      ⟨_, _, rfl, ⟨n, rfl, hn, hnu⟩, _, _, rfl, ⟨s, rfl, hs⟩, d, rfl, hd, hdu⟩)
    · exact .word ht
    · exact .number ht
    · exact .fraction hn hs hd hnu hdu
  · intro h
    cases h with
    | word ht => exact .inl (.inl ⟨_, rfl, ht⟩)
    | number ht => exact .inl (.inr ⟨_, rfl, ht⟩)
    | fraction hn hs hd hnu hdu =>
      exact .inr ⟨[_], [_, _], rfl, ⟨_, rfl, hn, hnu⟩, [_], [_], rfl, ⟨_, rfl, hs⟩, _, rfl, hd, hdu⟩

theorem mem_value_iff : ts.map Token.spelling ∈ value ↔ IsValue ts := by
  simp only [value, mem_mul_iff, mem_operand_iff, mem_optional_iff, mem_mark_iff]
  constructor
  · rintro ⟨us, vs, rfl, hus, rfl | ⟨t, rfl, ht⟩⟩
    · rw [List.append_nil]
      exact .plain hus
    · exact .hacked hus ht
  · intro h
    cases h with
    | plain hts => exact ⟨ts, [], (List.append_nil ts).symm, hts, .inl rfl⟩
    | hacked hus ht => exact ⟨_, _, rfl, hus, .inr ⟨_, rfl, ht⟩⟩

theorem mem_test_iff : ts.map Token.spelling ∈ test ↔
    (∃ openParen name closeParen, ts = [openParen, name, closeParen] ∧
      openParen.kind = .leftParen ∧ name.kind = .identifier ∧
        (splitModifier name.text).1 = none ∧ closeParen.kind = .rightParen) ∨
      ∃ openParen name colon value closeParen,
        ts = openParen :: name :: colon :: (value ++ [closeParen]) ∧ openParen.kind = .leftParen ∧
          name.kind = .identifier ∧ colon.kind = .colon ∧ IsValue value ∧
            closeParen.kind = .rightParen := by
  simp only [test, Language.mem_add, mem_mul_iff, mem_mark_iff, mem_plainName_iff, mem_value_iff]
  constructor
  · rintro (⟨_, _, rfl, ⟨o, rfl, ho⟩, _, _, rfl, ⟨n, rfl, hn, hm⟩, c, rfl, hc⟩ |
      ⟨_, _, rfl, ⟨o, rfl, ho⟩, _, _, rfl, ⟨n, rfl, hn⟩, _, _, rfl, ⟨k, rfl, hk⟩, v, _, rfl, hv,
        c, rfl, hc⟩)
    · exact .inl ⟨o, n, c, rfl, ho, hn, hm, hc⟩
    · exact .inr ⟨o, n, k, v, c, rfl, ho, hn, hk, hv, hc⟩
  · rintro (⟨o, n, c, rfl, ho, hn, hm, hc⟩ | ⟨o, n, k, v, c, rfl, ho, hn, hk, hv, hc⟩)
    · exact .inl ⟨[o], [n, c], rfl, ⟨o, rfl, ho⟩, [n], [c], rfl, ⟨n, rfl, hn, hm⟩, c, rfl, hc⟩
    · exact .inr ⟨[o], n :: k :: (v ++ [c]), rfl, ⟨o, rfl, ho⟩, [n], k :: (v ++ [c]), rfl,
        ⟨n, rfl, hn⟩, [k], v ++ [c], rfl, ⟨k, rfl, hk⟩, v, [c], rfl, hv, c, rfl, hc⟩

theorem test_of_isTest {e : Expression} (h : IsTest input ts e) :
    ts.map Token.spelling ∈ test := by
  rw [mem_test_iff]
  cases h with
  | bare hopen hname hclose hsplit =>
    exact .inl ⟨_, _, _, rfl, hopen, hname, congrArg Prod.fst hsplit, hclose⟩
  | valued hopen hname hcolon hvalue hclose =>
    exact .inr ⟨_, _, _, _, _, rfl, hopen, hname, hcolon, hvalue, hclose⟩

theorem tests_of_areTests {es : List Expression} (h : AreTests input ts es) :
    ts.map Token.spelling ∈ tests := by
  rw [tests, mem_kstar_iff]
  induction h with
  | none => exact ⟨[], rfl, fun _ h => absurd h List.not_mem_nil⟩
  | @more conjunction test rest e es hand htest _ ih =>
    obtain ⟨tss, rfl, htss⟩ := ih
    refine ⟨(conjunction :: test) :: tss, rfl, List.forall_mem_cons.mpr ⟨?_, htss⟩⟩
    exact mem_mul_iff.mpr
      ⟨[conjunction], test, rfl, mem_mark_iff.mpr ⟨conjunction, rfl, hand⟩, test_of_isTest htest⟩

theorem clause_of_isClause {q : Query} (h : IsClause input ts q) :
    ts.map Token.spelling ∈ clause := by
  simp only [clause, Language.mem_add, mem_mul_iff, mem_optional_iff, mem_mark_iff]
  cases h with
  | @typed type next hack keyword postHack tests pre post inverse es htype hnext hpre hkeyword hpost
      htests =>
    refine .inl ⟨hack, _, List.append_assoc .., ?_, keyword, _, rfl, ?_, [type], _, rfl,
      ⟨type, rfl, htype⟩, postHack, tests, rfl, ?_, tests_of_areTests htests⟩
    · cases hpre with
      | none => exact .inl rfl
      | hack hhack => exact .inr ⟨_, rfl, hhack⟩
    · cases hkeyword with
      | none => exact .inl rfl
      | not hnot => exact .inr (.inl ⟨_, rfl, hnot⟩)
      | only honly => exact .inr (.inr ⟨_, rfl, honly⟩)
    · cases hpost with
      | none => exact .inl rfl
      | hack hhack => exact .inr ⟨_, rfl, hhack⟩
  | untyped htest htests =>
    exact .inr ⟨_, _, rfl, test_of_isTest htest, tests_of_areTests htests⟩

/-- **A query list has the shape of one.** -/
theorem queryList_of_isQueryList {l : QueryList} (h : IsQueryList input ts l) :
    ts.map Token.spelling ∈ queryList := by
  simp only [queryList, mem_mul_iff, mem_kstar_iff]
  induction h with
  | @one ts q hclause =>
    exact ⟨ts, [], (List.append_nil ts).symm, clause_of_isClause hclause, [], rfl,
      fun _ h => absurd h List.not_mem_nil⟩
  | @more clause rest comma q l hclause hcomma _ ih =>
    obtain ⟨us, _, rfl, hus, tss, rfl, htss⟩ := ih
    refine ⟨clause, _, rfl, clause_of_isClause hclause, (comma :: us) :: tss, rfl,
      List.forall_mem_cons.mpr ⟨⟨[comma], us, rfl, ?_, hus⟩, htss⟩⟩
    exact mem_mark_iff.mpr ⟨comma, rfl, hcomma⟩

end Derived

end Shape

end MediaQuery
