import Mathlib
import MediaQuery.Proofs.Query.Exact
import MediaQuery.Proofs.Query.Moved

/-!
# Commas — a query list is read clause by clause

A comma is a token wherever it stands in a text, and no clause holds one. So the commas of a text
are the commas between its clauses, and reading a text with a comma is reading both sides
(`parse_comma`): the tokens before it and behind it are those of the sides, and what they denote
does not depend on the other side. Cut at all of its commas, a text is read if and only if each part
is, as one query (`parse_iff_forall₂_splitOn`).
-/

namespace MediaQuery

open scoped Computability

/-! ## Clauses hold no comma -/

namespace Shape

/-- No word of the language holds a token of the kind. -/
def Avoids (kind : Kind) (language : Language (Kind × String)) : Prop :=
  ∀ w ∈ language, ∀ s ∈ w, s.1 ≠ kind

namespace Avoids

variable {kind kind' : Kind} {language other : Language (Kind × String)}

theorem mark (h : kind' ≠ kind) : Avoids kind (mark kind') := by
  rintro w ⟨text, rfl⟩
  exact List.forall_mem_singleton.mpr h

theorem plainNumber (h : Kind.number ≠ kind) : Avoids kind plainNumber := by
  rintro w ⟨text, rfl, -⟩
  exact List.forall_mem_singleton.mpr h

theorem plainName (h : Kind.identifier ≠ kind) : Avoids kind plainName := by
  rintro w ⟨text, rfl, -⟩
  exact List.forall_mem_singleton.mpr h

theorem add (h : Avoids kind language) (h' : Avoids kind other) :
    Avoids kind (language + other) := by
  intro w hw
  rcases (Language.mem_add ..).mp hw with hw | hw
  · exact h w hw
  · exact h' w hw

theorem mul (h : Avoids kind language) (h' : Avoids kind other) :
    Avoids kind (language * other) := by
  intro w hw
  obtain ⟨a, ha, b, hb, rfl⟩ := Language.mem_mul.mp hw
  exact List.forall_mem_append.mpr ⟨h a ha, h' b hb⟩

theorem optional (h : Avoids kind language) : Avoids kind (optional language) := by
  intro w hw
  rcases (Language.mem_add ..).mp hw with hw | hw
  · obtain rfl := (Language.mem_one w).mp hw
    exact fun s hs => absurd hs List.not_mem_nil
  · exact h w hw

theorem kstar (h : Avoids kind language) : Avoids kind (language∗) := by
  intro w hw s hs
  obtain ⟨ws, rfl, hws⟩ := Language.mem_kstar.mp hw
  obtain ⟨y, hy, hs⟩ := List.mem_flatten.mp hs
  exact h y (hws y hy) s hs

end Avoids

theorem avoids_comma_value : Avoids .comma value := by
  have hfraction : Avoids .comma (plainNumber * (mark .slash * plainNumber)) :=
    .mul (.plainNumber (by decide)) (.mul (.mark (by decide)) (.plainNumber (by decide)))
  have hoperand : Avoids .comma operand :=
    ((Avoids.mark (by decide)).add (.mark (by decide))).add hfraction
  exact hoperand.mul (Avoids.mark (by decide)).optional

theorem avoids_comma_test : Avoids .comma test := by
  have hbare : Avoids .comma (mark .leftParen * (plainName * mark .rightParen)) :=
    .mul (.mark (by decide)) (.mul (.plainName (by decide)) (.mark (by decide)))
  have hrest : Avoids .comma (value * mark .rightParen) :=
    avoids_comma_value.mul (.mark (by decide))
  exact hbare.add
    (.mul (.mark (by decide)) (.mul (.mark (by decide)) (.mul (.mark (by decide)) hrest)))

theorem avoids_comma_clause : Avoids .comma clause := by
  have htests : Avoids .comma tests := ((Avoids.mark (by decide)).mul avoids_comma_test).kstar
  have hhack : Avoids .comma (optional (mark .hack)) := (Avoids.mark (by decide)).optional
  have hkeyword : Avoids .comma (optional (mark .not + mark .only)) :=
    ((Avoids.mark (by decide)).add (.mark (by decide))).optional
  exact (hhack.mul (hkeyword.mul (.mul (.mark (by decide)) (hhack.mul htests)))).add
    (avoids_comma_test.mul htests)

end Shape

variable {input : String} {ts us : List Token} {comma : Token} {q : Query} {l : QueryList}

theorem IsClause.kind_ne_comma (h : IsClause input ts q) : ∀ t ∈ ts, t.kind ≠ .comma := fun t ht =>
  Shape.avoids_comma_clause _ (Shape.clause_of_isClause h) t.spelling (List.mem_map_of_mem ht)

/-! ## Commas in derivations -/

/-- Two query lists with a comma between them are one. -/
theorem IsQueryList.append {l' : QueryList} (h : IsQueryList input ts l)
    (hcomma : comma.kind = .comma) (h' : IsQueryList input us l') :
    IsQueryList input (ts ++ comma :: us) (l ++ l') := by
  induction h with
  | one hclause => exact .more hclause hcomma h'
  | more hclause hcomma' _ ih =>
    rw [List.append_assoc, List.cons_append]
    exact .more hclause hcomma' ih

/-- A query list with a comma in it is two. -/
theorem IsQueryList.exists_of_comma (hcomma : comma.kind = .comma)
    (h : IsQueryList input (ts ++ comma :: us) l) :
    ∃ l₁ l₂, IsQueryList input ts l₁ ∧ IsQueryList input us l₂ ∧ l = l₁ ++ l₂ := by
  generalize hall : ts ++ comma :: us = all at h
  induction h generalizing ts with
  | one hclause =>
    refine absurd hcomma (hclause.kind_ne_comma comma ?_)
    rw [← hall]
    exact List.mem_append_right ts List.mem_cons_self
  | @more clause rest comma' q l hclause hcomma' hrest ih =>
    rcases List.append_eq_append_iff.mp hall with ⟨as, rfl, has⟩ | ⟨as, rfl, has⟩
    · cases as with
      | nil =>
        obtain ⟨-, rfl⟩ := List.cons.inj has
        rw [List.append_nil] at hclause
        exact ⟨[q], l, .one hclause, hrest, rfl⟩
      | cons a as =>
        obtain ⟨rfl, -⟩ := List.cons.inj has
        exact absurd hcomma
          (hclause.kind_ne_comma _ (List.mem_append_right ts List.mem_cons_self))
    · cases as with
      | nil =>
        obtain ⟨rfl, rfl⟩ := List.cons.inj has
        rw [List.append_nil]
        exact ⟨[q], l, .one hclause, hrest, rfl⟩
      | cons a as =>
        obtain ⟨rfl, hrest'⟩ := List.cons.inj has
        obtain ⟨l₁, l₂, h₁, h₂, rfl⟩ := ih hrest'.symm
        exact ⟨q :: l₁, l₂, .more hclause hcomma' h₁, h₂, rfl⟩

/-- A query list without a comma is one query. -/
theorem IsQueryList.eq_singleton (h : IsQueryList input ts l) (hts : ∀ t ∈ ts, t.kind ≠ .comma) :
    ∃ q, l = [q] := by
  cases h with
  | one => exact ⟨_, rfl⟩
  | @more clause rest comma _ _ _ hcomma =>
    exact absurd hcomma (hts comma (List.mem_append_right clause List.mem_cons_self))

/-! ## Commas in texts -/

/-- A text with a comma token has a comma. -/
theorem mem_of_mem_scan_comma {offset : Nat} {cs : List Char} {t : Token}
    (h : t ∈ scan offset cs) (ht : t.kind = .comma) : ',' ∈ cs := by
  obtain ⟨word, rest, hlex, hsuffix, -⟩ := exists_lexes_of_mem_scan h
  rw [ht] at hlex
  obtain rfl : word = [','] := hlex.admits
  exact hsuffix.subset List.mem_cons_self

/-- The comma token between two texts, the second of which moves behind it. -/
theorem scan_comma (as bs : List Char) :
    scan 0 (as ++ ',' :: bs) =
      scan 0 as ++ Token.ofWord .comma (byteLength as) [','] ::
        (scan 0 bs).map (Token.shift (byteLength (as ++ [',']))) := by
  rw [scan_append_cons (by decide), byteLength_append, List.append_assoc]
  rfl

/-- The queries of two texts are those of the text with a comma between them. -/
theorem parse_comma_of_parse {as bs : List Char} {l₁ l₂ : QueryList}
    (h₁ : parse (String.ofList as) = .ok l₁) (h₂ : parse (String.ofList bs) = .ok l₂) :
    parse (String.ofList (as ++ ',' :: bs)) = .ok (l₁ ++ l₂) := by
  rw [parse_eq_ok_iff, String.toList_ofList] at h₁ h₂ ⊢
  have h₁' := h₁.shift (isPart_front as (',' :: bs))
  have h₂' := h₂.shift (isPart_back (as ++ [',']) bs)
  rw [map_shift_zero] at h₁'
  rw [List.append_assoc, List.singleton_append] at h₂'
  rw [scan_comma]
  exact h₁'.append rfl h₂'

/-- **A comma between two texts**: both are read, and their queries put together. -/
theorem parse_comma {as bs : List Char} :
    parse (String.ofList (as ++ ',' :: bs)) = .ok l ↔
      ∃ l₁ l₂, parse (String.ofList as) = .ok l₁ ∧ parse (String.ofList bs) = .ok l₂ ∧
        l = l₁ ++ l₂ := by
  constructor
  · intro h
    have hlist := parse_eq_ok_iff.mp h
    rw [String.toList_ofList, scan_comma] at hlist
    obtain ⟨_, _, h₁, h₂, -⟩ := hlist.exists_of_comma rfl
    obtain ⟨l₁, h₁⟩ := exists_parse_iff.mpr (by
      rw [String.toList_ofList]
      exact Shape.queryList_of_isQueryList h₁)
    obtain ⟨l₂, h₂⟩ := exists_parse_iff.mpr (by
      rw [String.toList_ofList, ← map_spelling_shift]
      exact Shape.queryList_of_isQueryList h₂)
    exact ⟨l₁, l₂, h₁, h₂, Except.ok.inj (h.symm.trans (parse_comma_of_parse h₁ h₂))⟩
  · rintro ⟨l₁, l₂, h₁, h₂, rfl⟩
    exact parse_comma_of_parse h₁ h₂

/-- A text without a comma is read as one query. -/
theorem parse_eq_singleton {cs : List Char} (h : parse (String.ofList cs) = .ok l)
    (hcs : ',' ∉ cs) : ∃ q, l = [q] := by
  rw [parse_eq_ok_iff, String.toList_ofList] at h
  exact h.eq_singleton fun t ht hcomma => hcs (mem_of_mem_scan_comma ht hcomma)

/-! ## Cutting at every comma -/

/-- A text has no comma, or it goes on behind the first one with a text of the same sort. -/
theorem comma_induction {motive : List Char → Prop} (last : ∀ cs, ',' ∉ cs → motive cs)
    (more : ∀ cs rest, ',' ∉ cs → motive rest → motive (cs ++ ',' :: rest)) (cs : List Char) :
    motive cs := by
  induction hn : cs.length using Nat.strongRecOn generalizing cs with
  | ind n ih =>
    by_cases hmem : ',' ∈ cs
    · obtain ⟨front, rest, rfl, hfront⟩ := List.eq_append_cons_of_mem hmem
      refine more front rest hfront (ih rest.length ?_ rest rfl)
      rw [← hn, List.length_append, List.length_cons]
      omega
    · exact last cs hmem

/-- A text is cut into one part more than it has commas. -/
theorem length_splitOn_comma (cs : List Char) : (cs.splitOn ',').length = cs.count ',' + 1 := by
  induction cs using comma_induction with
  | last cs hcs =>
    rw [List.splitOn_eq_singleton hcs, List.count_eq_zero_of_not_mem hcs]
    rfl
  | more cs rest hcs ih =>
    rw [List.splitOn_append_cons_self_of_not_mem hcs, List.length_cons, ih, List.count_append,
      List.count_cons_self, List.count_eq_zero_of_not_mem hcs, Nat.zero_add]

/-- A text is read if and only if each of its parts between commas is, as one query. -/
theorem parse_iff_forall₂_splitOn {cs : List Char} :
    parse (String.ofList cs) = .ok l ↔
      List.Forall₂ (fun part q => parse (String.ofList part) = .ok [q]) (cs.splitOn ',') l := by
  induction cs using comma_induction generalizing l with
  | last cs hcs =>
    rw [List.splitOn_eq_singleton hcs]
    constructor
    · intro h
      obtain ⟨q, rfl⟩ := parse_eq_singleton h hcs
      exact .cons h .nil
    · intro h
      cases h with
      | cons hq hnil =>
        cases hnil
        exact hq
  | more cs rest hcs ih =>
    rw [List.splitOn_append_cons_self_of_not_mem hcs, parse_comma]
    constructor
    · rintro ⟨l₁, l₂, h₁, h₂, rfl⟩
      obtain ⟨q, rfl⟩ := parse_eq_singleton h₁ hcs
      exact .cons h₁ (ih.mp h₂)
    · intro h
      cases h with
      | @cons _ q _ l₂ hq hrest => exact ⟨[q], l₂, hq, ih.mpr hrest, rfl⟩

/-- **Reading is a homomorphism at commas.** A text is read as a list if and only if its parts
between commas are read as one query each, the queries of the list in order; so one part that is not
read refuses the text, and a text that is read has one query more than it has commas. -/
theorem parse_splitOn (s : String) :
    (∀ l, parse s = .ok l ↔
      List.Forall₂ (fun part q => parse (String.ofList part) = .ok [q]) (s.toList.splitOn ',') l) ∧
    ((∃ part ∈ s.toList.splitOn ',', ∀ l, parse (String.ofList part) ≠ .ok l) →
      ∀ l, parse s ≠ .ok l) ∧
    ∀ l, parse s = .ok l → l.length = s.toList.count ',' + 1 := by
  have hiff : ∀ l, parse s = .ok l ↔ List.Forall₂
      (fun part q => parse (String.ofList part) = .ok [q]) (s.toList.splitOn ',') l := by
    intro l
    rw [← parse_iff_forall₂_splitOn, String.ofList_toList]
  refine ⟨hiff, ?_, ?_⟩
  · rintro ⟨part, hpart, hbad⟩ l h
    have hall := (hiff l).mp h
    obtain ⟨i, hi, rfl⟩ := List.getElem_of_mem hpart
    exact hbad _ (hall.get hi (hall.length_eq ▸ hi))
  · intro l h
    rw [← ((hiff l).mp h).length_eq, length_splitOn_comma]

/-- Two clauses are read as two queries, and an empty part between two commas refuses the text. -/
theorem parse_splitOn_clauses :
    parse "tv,(color)" = .ok [⟨false, "", "tv", "", []⟩,
      ⟨false, "", "all", "", [⟨none, "color", none⟩]⟩] ∧
    ∀ l, parse "tv,,(color)" ≠ .ok l := by
  constructor
  · have hparts : "tv,(color)".toList.splitOn ',' =
        [['t', 'v'], ['(', 'c', 'o', 'l', 'o', 'r', ')']] := by decide
    rw [(parse_splitOn "tv,(color)").1, hparts]
    exact .cons (by cbv) (.cons (by cbv) .nil)
  · have hparts : [] ∈ "tv,,(color)".toList.splitOn ',' := by decide
    have hempty : (parse (String.ofList [])).toOption = none := by cbv
    refine (parse_splitOn "tv,,(color)").2.1 ⟨[], hparts, ?_⟩
    intro l h
    rw [h] at hempty
    cases hempty

end MediaQuery
