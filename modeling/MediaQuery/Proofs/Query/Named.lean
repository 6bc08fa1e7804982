import Mathlib
import MediaQuery.Proofs.Query.Output

/-!
# Named tests — from the word in the text to the feature

Every test that is read has its name in the text, an identifier that splits into the modifier and
the feature (`IsQueryList.exists_names`). Where nothing is taken off it, the feature is that
identifier. A leading modifier is taken off at its hyphen, and what is left is any end of a word
that is more than hyphens. Such a text is an identifier or begins with a digit, perhaps behind
hyphens (`isIdentifier_or_isDigitLed`), and never both (`IsIdentifier.not_isDigitLed`). So a feature
that is no identifier is one that a digit leads, and there the name began with `min-` or `max-`
(`parse_named`).
-/

namespace MediaQuery

variable {input : String} {ts : List Token} {cs : List Char} {t : Token} {e : Expression}

/-! ## Words that a digit leads -/

/-- Any number of hyphens, a digit, and any characters that go on with a word. -/
inductive IsDigitLed : List Char → Prop where
  | digit {d : Char} {cs : List Char} :
      d.isDigit = true → (∀ c ∈ cs, isNameChar c = true) → IsDigitLed (d :: cs)
  | hyphen {cs : List Char} : IsDigitLed cs → IsDigitLed ('-' :: cs)

theorem not_isNameStart_of_isDigit {d : Char} (h : d.isDigit = true) : isNameStart d = false := by
  rw [Bool.eq_false_iff]
  intro hstart
  have hnine : d ≤ '9' := (Char.isDigit_iff_toNat.mp h).2
  rcases isNameStart_iff.mp hstart with (⟨hletter, -⟩ | ⟨hletter, -⟩) | rfl | hbeyond
  · exact absurd (Nat.le_trans hletter hnine) (by decide)
  · exact absurd (Nat.le_trans hletter hnine) (by decide)
  · exact absurd h (by decide)
  · exact absurd (Nat.le_trans hbeyond hnine) (by decide)

/-- No identifier is led by a digit. -/
theorem IsIdentifier.not_isDigitLed (h : IsIdentifier cs) : ¬ IsDigitLed cs := by
  induction h with
  | start hc =>
    intro hled
    cases hled with
    | digit hd =>
      rw [not_isNameStart_of_isDigit hd] at hc
      cases hc
    | hyphen => exact absurd hc (by decide)
  | hyphen _ ih =>
    intro hled
    cases hled with
    | digit hd => exact absurd hd (by decide)
    | hyphen hled => exact ih hled

/-- A word that may stand behind a hyphen, and is more than hyphens, is an identifier or is led by a
digit. -/
theorem isIdentifier_or_isDigitLed (hchars : ∀ c ∈ cs, isNameChar c = true)
    (hne : ∃ c ∈ cs, c ≠ '-') : IsIdentifier cs ∨ IsDigitLed cs := by
  induction cs with
  | nil =>
    obtain ⟨c, hc, -⟩ := hne
    cases hc
  | cons c cs ih =>
    obtain ⟨hc, hcs⟩ := List.forall_mem_cons.mp hchars
    by_cases hhyphen : c = '-'
    · subst hhyphen
      obtain ⟨d, hd, hdne⟩ := hne
      have hne : ∃ c ∈ cs, c ≠ '-' := ⟨d, (List.mem_cons.mp hd).resolve_left hdne, hdne⟩
      exact (ih hcs hne).imp .hyphen .hyphen
    · simp only [isNameChar, Bool.or_eq_true, beq_iff_eq, hhyphen, or_false] at hc
      exact hc.imp (fun hstart => .start hstart hcs) fun hdigit => .digit hdigit hcs

/-! ## Names of tests -/

/-- The token is the name of the test. -/
structure Names (t : Token) (e : Expression) : Prop where
  kind : t.kind = .identifier
  split : splitModifier t.text = (e.modifier, e.feature)

theorem IsTest.exists_names (h : IsTest input ts e) : ∃ t ∈ ts, Names t e := by
  cases h with
  | bare _ hname _ hsplit => exact ⟨_, List.mem_cons_of_mem _ List.mem_cons_self, hname, hsplit⟩
  | valued _ hname _ _ _ hsplit =>
    exact ⟨_, List.mem_cons_of_mem _ List.mem_cons_self, hname, hsplit⟩

theorem AreTests.exists_names {es : List Expression} (h : AreTests input ts es) :
    ∀ e ∈ es, ∃ t ∈ ts, Names t e := by
  induction h with
  | none => exact fun e he => absurd he List.not_mem_nil
  | @more conjunction test tests e es _ htest _ ih =>
    refine List.forall_mem_cons.mpr ⟨?_, fun e he => ?_⟩
    · obtain ⟨t, ht, hnames⟩ := htest.exists_names
      exact ⟨t, List.mem_cons_of_mem _ (List.mem_append_left tests ht), hnames⟩
    · obtain ⟨t, ht, hnames⟩ := ih e he
      exact ⟨t, List.mem_cons_of_mem _ (List.mem_append_right test ht), hnames⟩

theorem IsClause.exists_names {q : Query} (h : IsClause input ts q) :
    ∀ e ∈ q.expressions, ∃ t ∈ ts, Names t e := by
  cases h with
  | typed _ _ _ _ _ htests =>
    intro e he
    obtain ⟨t, ht, hnames⟩ := htests.exists_names e he
    exact ⟨t, isInfix_tests.subset ht, hnames⟩
  | @untyped test tests _ _ htest htests =>
    refine List.forall_mem_cons.mpr ⟨?_, fun e he => ?_⟩
    · obtain ⟨t, ht, hnames⟩ := htest.exists_names
      exact ⟨t, List.mem_append_left tests ht, hnames⟩
    · obtain ⟨t, ht, hnames⟩ := htests.exists_names e he
      exact ⟨t, List.mem_append_right test ht, hnames⟩

/-- **Every test has its name among the tokens.** -/
theorem IsQueryList.exists_names {l : QueryList} (h : IsQueryList input ts l) :
    ∀ q ∈ l, ∀ e ∈ q.expressions, ∃ t ∈ ts, Names t e := by
  induction h with
  | one hclause => exact List.forall_mem_singleton.mpr hclause.exists_names
  | @more clause rest comma q l hclause _ _ ih =>
    refine List.forall_mem_cons.mpr ⟨fun e he => ?_, fun q hq e he => ?_⟩
    · obtain ⟨t, ht, hnames⟩ := hclause.exists_names e he
      exact ⟨t, List.mem_append_left _ ht, hnames⟩
    · obtain ⟨t, ht, hnames⟩ := ih q hq e he
      exact ⟨t, isInfix_rest.subset ht, hnames⟩

/-! ## Features -/

/-- What a name splits into is an identifier, or a leading modifier was taken off it. -/
theorem isIdentifier_or_exists_word {name : String} (h : IsIdentifier name.toList) :
    IsIdentifier (splitModifier name).2.toList ∨
      ∃ modifier word, (splitModifier name).1 = some modifier ∧
        Modifier.ofWord? word = some modifier ∧
          name.toList = word ++ '-' :: (splitModifier name).2.toList := by
  cases hlead : leadingModifier? name.toList with
  | none =>
    rw [splitModifier_of_not_leading hlead]
    exact .inl h
  | some found =>
    obtain ⟨word, hname, hword, -⟩ := leadingModifier?_eq_some_iff.mp hlead
    rw [splitModifier_of_leading hlead, String.toList_ofList]
    exact .inr ⟨found.1, word, rfl, hword, hname⟩

/-- **A feature is an identifier, unless a digit is left in front of it.** Every test that is read
has a name in the text that splits into its modifier and its feature. The feature is an identifier
exactly if no digit leads it; and a digit leads it only where the name is the word of the modifier,
a hyphen and the feature. -/
theorem parse_named {l : QueryList} (h : parse input = .ok l) :
    ∀ q ∈ l, ∀ e ∈ q.expressions, ∃ name ∈ tokenize input, Names name e ∧
      (IsIdentifier e.feature.toList ↔ ¬ IsDigitLed e.feature.toList) ∧
      (IsDigitLed e.feature.toList → ∃ modifier word, e.modifier = some modifier ∧
        Modifier.ofWord? word = some modifier ∧
          name.text.toList = word ++ '-' :: e.feature.toList) := by
  have hlist := parse_eq_ok_iff.mp h
  intro q hq e he
  obtain ⟨name, hmem, hnames⟩ := hlist.exists_names q hq e he
  have hname : IsIdentifier name.text.toList :=
    (isName_of_mem_scan hmem hnames.kind).identifier
  have hfeature := (((hlist.wellFormed List.infix_rfl).2 q hq).expressions e he).feature
  have hcases := isIdentifier_or_isDigitLed hfeature.isNameChar hfeature.exists_ne_hyphen
  have hword := isIdentifier_or_exists_word hname
  rw [hnames.split] at hword
  refine ⟨name, List.mem_append_left _ hmem, hnames, ⟨fun hid => hid.not_isDigitLed, ?_⟩, ?_⟩
  · exact hcases.resolve_right
  · exact fun hled => hword.resolve_left fun hid => hid.not_isDigitLed hled

/-- Of two names with a modifier in front, one leaves an identifier and one a word that a digit
leads. -/
theorem parse_named_bounds :
    parse "(MAX-width:2) and (min--2x:1)" = .ok [⟨false, "", "all", "",
      [⟨some .max, "width", some "2"⟩, ⟨some .min, "-2x", some "1"⟩]⟩] ∧
    (∃ name ∈ tokenize "(MAX-width:2) and (min--2x:1)",
      Names name ⟨some .max, "width", some "2"⟩ ∧ IsIdentifier "width".toList) ∧
    ∃ name ∈ tokenize "(MAX-width:2) and (min--2x:1)",
      Names name ⟨some .min, "-2x", some "1"⟩ ∧ ∃ modifier word, some .min = some modifier ∧
        Modifier.ofWord? word = some modifier ∧
          name.text.toList = word ++ '-' :: "-2x".toList := by
  have hlist : parse "(MAX-width:2) and (min--2x:1)" = .ok [⟨false, "", "all", "",
      [⟨some .max, "width", some "2"⟩, ⟨some .min, "-2x", some "1"⟩]⟩] := by cbv
  have hled : ¬ IsDigitLed "width".toList :=
    IsIdentifier.not_isDigitLed (.of_all (by decide) (by decide))
  obtain ⟨name, hmem, hnames, hid, -⟩ := parse_named hlist _ List.mem_cons_self
    ⟨some .max, "width", some "2"⟩ List.mem_cons_self
  obtain ⟨name', hmem', hnames', -, hword⟩ := parse_named hlist _ List.mem_cons_self
    ⟨some .min, "-2x", some "1"⟩ (List.mem_cons_of_mem _ List.mem_cons_self)
  exact ⟨hlist, ⟨name, hmem, hnames, hid.mpr hled⟩, name', hmem', hnames',
    hword (.hyphen (.digit (by decide) (List.all_eq_true.mp (by decide))))⟩

/-- What is left of a name behind `min-` may begin with a digit, and then it is no identifier. -/
theorem parse_named_digit :
    parse "(min-2x: 1)" = .ok [⟨false, "", "all", "", [⟨some .min, "2x", some "1"⟩]⟩] ∧
    ¬ IsIdentifier "2x".toList ∧
    ¬ ∀ input l, parse input = .ok l → ∀ q ∈ l, ∀ e ∈ q.expressions,
      IsIdentifier e.feature.toList := by
  have hlist : parse "(min-2x: 1)" =
      .ok [⟨false, "", "all", "", [⟨some .min, "2x", some "1"⟩]⟩] := by cbv
  have hled : IsDigitLed "2x".toList :=
    .digit (by decide) (List.all_eq_true.mp (by decide))
  have hnone : ¬ IsIdentifier "2x".toList := fun hid => hid.not_isDigitLed hled
  refine ⟨hlist, hnone, fun hall => hnone ?_⟩
  exact hall _ _ hlist _ List.mem_cons_self _ List.mem_cons_self

end MediaQuery
