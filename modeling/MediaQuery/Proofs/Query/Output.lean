import Mathlib
import MediaQuery.Proofs.Query.Exact
import MediaQuery.Proofs.Query.Feature
import MediaQuery.Proofs.Query.Moved

/-!
# What reading yields — every query of a text is well formed

The parts of a query are texts of tokens, or parts of the input between tokens that follow each
other. A token's text is in the language of its kind, between two tokens stand blanks, and what
stands from the first token of a value to its last has the same tokens by itself, so each part is
as `Query.WellFormed` asks. The statements follow the grammar, and each is about tokens in the
middle of those of the input; the last one is `parse_wellFormed`.
-/

namespace MediaQuery

variable {input : String} {ts : List Token} {t u : Token}

/-! ## Names and hacks -/

/-- The text of an identifier is a name. -/
theorem isName_of_mem_scan (h : t ∈ scan 0 input.toList) (ht : t.kind = .identifier) :
    IsName t.text.toList := by
  obtain ⟨word, rest, hlex, -, htext⟩ := exists_lexes_of_mem_scan h
  rw [ht] at hlex
  rw [htext, String.toList_ofList]
  exact hlex.isName

/-- From the start of a hack to the next token stand the hack and blanks. -/
theorem isPreHackText_of_infix (h : [t, u] <:+: scan 0 input.toList) (ht : t.kind = .hack)
    {text : String} (htext : IsPart input t.span.start u.span.start text) :
    IsPreHackText text := by
  obtain ⟨word, gap, word', back, hgap, hlex, -, hpart, -⟩ := exists_gap_of_infix h
  rw [ht] at hlex
  rw [htext.unique hpart]
  exact .inr ⟨word, gap, String.toList_ofList, hlex.isHack, hgap⟩

/-- A character that does not go on with a word is ASCII. -/
theorem toNat_lt_of_not_isNameChar {c : Char} (h : isNameChar c = false) : c.toNat < 0x80 := by
  by_contra hbeyond
  have hstart : isNameStart c = true := isNameStart_iff.mpr (.inr (.inr (Nat.le_of_not_lt hbeyond)))
  rw [isNameChar_iff.mpr (.inl hstart)] at h
  cases h

/-- From the end of an identifier to the end of the hack behind it stand blanks and the hack. The
first blank did not go on with the identifier. -/
theorem isPostHackText_of_infix (h : [t, u] <:+: scan 0 input.toList) (ht : t.kind = .identifier)
    (hu : u.kind = .hack) {text : String}
    (htext : IsPart input t.span.stop u.span.stop text) : IsPostHackText text := by
  obtain ⟨word, gap, word', back, hgap, hlex, hlex', -, hpart, -⟩ := exists_gap_of_infix h
  rw [ht] at hlex
  rw [hu] at hlex'
  rw [htext.unique hpart]
  refine .inr ⟨gap, word', String.toList_ofList, hlex'.isHack, hgap, ?_⟩
  intro c hc
  apply toNat_lt_of_not_isNameChar
  apply hlex.stop c
  rw [List.head?_append, hc]
  rfl

/-! ## Values -/

theorem IsValue.of_shift {n : Nat} (h : IsValue (ts.map (Token.shift n))) : IsValue ts := by
  rw [← Shape.mem_value_iff, map_spelling_shift] at h
  exact Shape.mem_value_iff.mp h

/-- What stands from the first token of a value to its last reads as a value by itself. -/
theorem isValueText_of_infix (h : ts <:+: scan 0 input.toList) (hts : IsValue ts) {text : String}
    (htext : Spells input ts text) : IsValueText text := by
  obtain ⟨text', n, htext', heq, hstart, hstop⟩ := exists_part_of_infix h hts.ne_nil
  obtain rfl : text = text' := htext.unique htext'
  rw [heq] at hts
  refine ⟨scan 0 text.toList, rfl, hts.of_shift, ?_, ?_⟩
  · intro first hfirst
    have hstart := hstart (first.shift n) (by
      rw [heq, List.head?_map, hfirst]
      rfl)
    exact Nat.add_left_cancel hstart
  · intro last hlast
    have hstop := hstop (last.shift n) (by
      rw [heq, List.getLast?_map, hlast]
      rfl)
    exact Nat.add_left_cancel hstop

/-! ## Tests -/

theorem IsTest.wellFormed {e : Expression} (h : IsTest input ts e)
    (hts : ts <:+: scan 0 input.toList) : e.WellFormed := by
  cases h with
  | @bare openParen name closeParen feature hopen hname hclose hsplit =>
    have hmem : name ∈ scan 0 input.toList :=
      hts.subset (List.mem_cons_of_mem openParen List.mem_cons_self)
    have hfeature := isFeature_splitModifier (isName_of_mem_scan hmem hname)
    rw [hsplit] at hfeature
    exact ⟨hfeature, fun h => absurd h Bool.false_ne_true,
      fun v hv => absurd hv (Option.not_mem_none v)⟩
  | @valued openParen name colon closeParen value modifier feature text hopen hname hcolon hvalue
      hclose hsplit htext =>
    have hmem : name ∈ scan 0 input.toList :=
      hts.subset (List.mem_cons_of_mem openParen List.mem_cons_self)
    have hfeature := isFeature_splitModifier (isName_of_mem_scan hmem hname)
    rw [hsplit] at hfeature
    refine ⟨hfeature, fun _ => rfl, ?_⟩
    intro v hv
    obtain rfl : text = v := Option.some.inj hv
    have hvalue' : value <:+: openParen :: name :: colon :: (value ++ [closeParen]) :=
      ⟨[openParen, name, colon], [closeParen], rfl⟩
    exact isValueText_of_infix (hvalue'.trans hts) hvalue htext

theorem AreTests.wellFormed {es : List Expression} (h : AreTests input ts es)
    (hts : ts <:+: scan 0 input.toList) : ∀ e ∈ es, e.WellFormed := by
  induction h with
  | none => exact fun e he => absurd he List.not_mem_nil
  | @more conjunction test tests e es _ htest _ ih =>
    have htest' : test <:+: conjunction :: (test ++ tests) := ⟨[conjunction], tests, rfl⟩
    have htests' : tests <:+: conjunction :: (test ++ tests) :=
      ⟨conjunction :: test, [], List.append_nil _⟩
    exact List.forall_mem_cons.mpr
      ⟨htest.wellFormed (htest'.trans hts), ih (htests'.trans hts)⟩

/-! ## Clauses -/

theorem IsPreHack.isPreHackText {next : Token} {hack : List Token} {pre : String}
    (h : IsPreHack input next hack pre) (hts : hack ++ [next] <:+: scan 0 input.toList) :
    IsPreHackText pre := by
  cases h with
  | none => exact .inl rfl
  | hack hhack htext => exact isPreHackText_of_infix hts hhack htext

theorem IsPostHack.isPostHackText {type : Token} {hack : List Token} {post : String}
    (h : IsPostHack input type hack post) (htype : type.kind = .identifier)
    (hts : type :: hack <:+: scan 0 input.toList) : IsPostHackText post := by
  cases h with
  | none => exact .inl rfl
  | hack hhack htext => exact isPostHackText_of_infix hts htype hhack htext

/-- The media type of a clause without one is a name. -/
theorem isName_all : IsName "all".toList :=
  ⟨.of_all (by decide) (by decide), by rintro c ⟨⟩; decide, by decide⟩

theorem IsClause.wellFormed {q : Query} (h : IsClause input ts q)
    (hts : ts <:+: scan 0 input.toList) : q.WellFormed := by
  cases h with
  | @typed type next hack keyword postHack tests pre post inverse es htype hnext hpre hkeyword hpost
      htests =>
    have hmem : type ∈ scan 0 input.toList :=
      hts.subset (List.mem_append_right _ List.mem_cons_self)
    exact ⟨hpre.isPreHackText ((isInfix_preHack hnext).trans hts), isName_of_mem_scan hmem htype,
      hpost.isPostHackText htype (isInfix_postHack.trans hts),
      htests.wellFormed (isInfix_tests.trans hts)⟩
  | untyped htest htests =>
    refine ⟨.inl rfl, isName_all, .inl rfl, List.forall_mem_cons.mpr ⟨?_, ?_⟩⟩
    · exact htest.wellFormed ((List.prefix_append _ _).isInfix.trans hts)
    · exact htests.wellFormed ((List.suffix_append _ _).isInfix.trans hts)

/-! ## Lists -/

theorem IsQueryList.wellFormed {l : QueryList} (h : IsQueryList input ts l)
    (hts : ts <:+: scan 0 input.toList) : l ≠ [] ∧ ∀ q ∈ l, q.WellFormed := by
  induction h with
  | one hclause =>
    exact ⟨List.cons_ne_nil _ _, List.forall_mem_singleton.mpr (hclause.wellFormed hts)⟩
  | @more clause rest comma q l hclause _ _ ih =>
    have hclause' : clause <:+: clause ++ comma :: rest := (List.prefix_append _ _).isInfix
    obtain ⟨-, hl⟩ := ih (isInfix_rest.trans hts)
    exact ⟨List.cons_ne_nil _ _,
      List.forall_mem_cons.mpr ⟨hclause.wellFormed (hclause'.trans hts), hl⟩⟩

/-- **What is read is well formed.** A text that is read yields at least one query, and each query
is one that a text can say; with or without a modifier, a feature is made of the characters that a
word goes on with, not all of them hyphens. -/
theorem parse_wellFormed {input : String} {l : QueryList} (h : parse input = .ok l) :
    l ≠ [] ∧ ∀ q ∈ l, q.WellFormed ∧ ∀ e ∈ q.expressions,
      (∀ c ∈ e.feature.toList, isNameChar c = true) ∧ ∃ c ∈ e.feature.toList, c ≠ '-' := by
  obtain ⟨hne, hl⟩ := (parse_eq_ok_iff.mp h).wellFormed List.infix_rfl
  refine ⟨hne, ?_⟩
  intro q hq
  refine ⟨hl q hq, ?_⟩
  intro e he
  have hfeature := ((hl q hq).expressions e he).feature
  exact ⟨hfeature.isNameChar, hfeature.exists_ne_hyphen⟩

/-- A text with all the parts that a query can have is read, and its query is well formed. -/
theorem parse_wellFormed_hacks :
    ∃ q : Query, parse "\\0 not tv \\9 and (-o-max-x: 1/2\\9)" = .ok [q] ∧ q.WellFormed := by
  have h : parse "\\0 not tv \\9 and (-o-max-x: 1/2\\9)" = .ok [⟨true, "\\0 ", "tv", " \\9",
      [⟨some .max, "-o-max-x", some "1/2\\9"⟩]⟩] := by
    cbv
  exact ⟨_, h, ((parse_wellFormed h).2 _ List.mem_cons_self).1⟩

end MediaQuery
