import MediaQuery.Proofs.Query.Placed

/-!
# Carried derivations — the same tokens over another input

A derivation looks at the kinds of tokens, at units and modifiers in their texts, and keeps parts of
the input. Where every token of a list is carried to one of the same kind, and every part that the
grammar may keep to a part of another input (`Carries`), a derivation is carried with them, to the
query list in which the strings are respelled (`IsQueryList.carry`).
-/

namespace MediaQuery

/-! ## Respelled queries -/

/-- How the strings of a query list change. Words keep their unit and their modifier. -/
structure Respelling where
  /-- of media types and features -/
  word : String → String
  value : String → String
  preHack : String → String
  postHack : String → String
  hasUnit_word : ∀ s, hasUnit (word s) = hasUnit s
  splitModifier_word : ∀ s, splitModifier (word s) =
    ((splitModifier s).1, word (splitModifier s).2)
  word_all : word "all" = "all"
  preHack_empty : preHack "" = ""
  postHack_empty : postHack "" = ""

/-- A test with its strings respelled. -/
def Expression.respell (r : Respelling) (e : Expression) : Expression :=
  ⟨e.modifier, r.word e.feature, e.value.map r.value⟩

/-- A query with its strings respelled. -/
def Query.respell (r : Respelling) (q : Query) : Query :=
  ⟨q.inverse, r.preHack q.preTypeHack, r.word q.mediaType, r.postHack q.postTypeHack,
    q.expressions.map (Expression.respell r)⟩

/-! ## Carried tokens -/

/-- The tokens over the one input are carried to tokens over the other, and so are the parts between
them. -/
structure Carries (input input' : String) (r : Respelling) (f : Token → Token) (ts : List Token) :
    Prop where
  kind : ∀ t, (f t).kind = t.kind
  text : ∀ t, (f t).text = r.word t.text
  spells : ∀ {us text}, us <:+: ts → IsValue us → Spells input us text →
    Spells input' (us.map f) (r.value text)
  upTo : ∀ {t u text}, [t, u] <:+: ts → t.kind = .hack →
    IsPart input t.span.start u.span.start text →
      IsPart input' (f t).span.start (f u).span.start (r.preHack text)
  behind : ∀ {t u text}, [t, u] <:+: ts → u.kind = .hack →
    IsPart input t.span.stop u.span.stop text →
      IsPart input' (f t).span.stop (f u).span.stop (r.postHack text)

/-! ## Parts of clauses -/

section Infix

variable {hack keyword postHack tests : List Token} {type next : Token}

theorem isInfix_preHack (h : next ∈ (keyword ++ [type]).head?) :
    hack ++ [next] <:+: hack ++ keyword ++ type :: (postHack ++ tests) := by
  obtain ⟨more, hmore⟩ := List.head?_eq_some_iff.mp h
  refine ⟨[], more ++ (postHack ++ tests), ?_⟩
  have hcut := congrArg (fun us => hack ++ us ++ (postHack ++ tests)) hmore
  simp only [List.append_assoc, List.cons_append, List.nil_append] at hcut ⊢
  exact hcut.symm

theorem isInfix_postHack :
    type :: postHack <:+: hack ++ keyword ++ type :: (postHack ++ tests) :=
  ⟨hack ++ keyword, tests, by simp only [List.append_assoc, List.cons_append]⟩

theorem isInfix_tests : tests <:+: hack ++ keyword ++ type :: (postHack ++ tests) :=
  ⟨hack ++ keyword ++ type :: postHack, [], by
    simp only [List.append_assoc, List.cons_append, List.append_nil]⟩

theorem isInfix_rest {clause rest : List Token} {comma : Token} :
    rest <:+: clause ++ comma :: rest :=
  ⟨clause ++ [comma], [], by simp only [List.append_assoc, List.cons_append, List.nil_append,
    List.append_nil]⟩

end Infix

/-! ## Carried derivations -/

section Carry

variable {input input' : String} {r : Respelling} {f : Token → Token} {ts : List Token}

theorem Carries.of_infix (h : Carries input input' r f ts) {us : List Token} (hus : us <:+: ts) :
    Carries input input' r f us :=
  ⟨h.kind, h.text, fun h' => h.spells (h'.trans hus), fun h' => h.upTo (h'.trans hus),
    fun h' => h.behind (h'.trans hus)⟩

theorem Carries.kind_eq (h : Carries input input' r f ts) {t : Token} {kind : Kind}
    (ht : t.kind = kind) : (f t).kind = kind := by
  rw [h.kind, ht]

theorem Carries.hasUnit_eq (h : Carries input input' r f ts) {t : Token} {b : Bool}
    (ht : hasUnit t.text = b) : hasUnit (f t).text = b := by
  rw [h.text, r.hasUnit_word, ht]

theorem Carries.splitModifier_eq (h : Carries input input' r f ts) {t : Token}
    {modifier : Option Modifier} {feature : String}
    (ht : splitModifier t.text = (modifier, feature)) :
    splitModifier (f t).text = (modifier, r.word feature) := by
  rw [h.text, r.splitModifier_word, ht]

theorem IsOperand.carry (h : Carries input input' r f ts) {operand : List Token}
    (hop : IsOperand operand) : IsOperand (operand.map f) := by
  cases hop with
  | word hword => exact .word (h.kind_eq hword)
  | number hnumber => exact .number (h.kind_eq hnumber)
  | fraction hnumerator hslash hdenominator hplain hplain' =>
    exact .fraction (h.kind_eq hnumerator) (h.kind_eq hslash) (h.kind_eq hdenominator)
      (h.hasUnit_eq hplain) (h.hasUnit_eq hplain')

theorem IsValue.carry (h : Carries input input' r f ts) {value : List Token}
    (hvalue : IsValue value) : IsValue (value.map f) := by
  cases hvalue with
  | plain hoperand => exact .plain (hoperand.carry h)
  | hacked hoperand hhack =>
    rw [List.map_append]
    exact .hacked (hoperand.carry h) (h.kind_eq hhack)

theorem IsTest.carry (h : Carries input input' r f ts) {e : Expression}
    (hts : IsTest input ts e) : IsTest input' (ts.map f) (e.respell r) := by
  cases hts with
  | bare hopen hname hclose hsplit =>
    exact .bare (h.kind_eq hopen) (h.kind_eq hname) (h.kind_eq hclose) (h.splitModifier_eq hsplit)
  | @valued openParen name colon closeParen value modifier feature text hopen hname hcolon hvalue
      hclose hsplit htext =>
    have hvalue' : value <:+: openParen :: name :: colon :: (value ++ [closeParen]) :=
      ⟨[openParen, name, colon], [closeParen], rfl⟩
    simp only [List.map_cons, List.map_append, List.map_nil]
    exact .valued (h.kind_eq hopen) (h.kind_eq hname) (h.kind_eq hcolon) (hvalue.carry h)
      (h.kind_eq hclose) (h.splitModifier_eq hsplit) (h.spells hvalue' hvalue htext)

theorem AreTests.carry (h : Carries input input' r f ts) {es : List Expression}
    (hts : AreTests input ts es) : AreTests input' (ts.map f) (es.map (Expression.respell r)) := by
  induction hts with
  | none => exact .none
  | @more conjunction test tests e es hand htest _ ih =>
    have htest' : test <:+: conjunction :: (test ++ tests) := ⟨[conjunction], tests, rfl⟩
    have htests' : tests <:+: conjunction :: (test ++ tests) :=
      ⟨conjunction :: test, [], List.append_nil _⟩
    rw [List.map_cons, List.map_append]
    exact .more (h.kind_eq hand) (htest.carry (h.of_infix htest')) (ih (h.of_infix htests'))

theorem IsPreHack.carry {next : Token} {hack : List Token} {pre : String}
    (h : Carries input input' r f (hack ++ [next])) (hpre : IsPreHack input next hack pre) :
    IsPreHack input' (f next) (hack.map f) (r.preHack pre) := by
  cases hpre with
  | none =>
    rw [r.preHack_empty]
    exact .none
  | hack hhack htext => exact .hack (h.kind_eq hhack) (h.upTo List.infix_rfl hhack htext)

theorem IsKeyword.carry (h : Carries input input' r f ts) {keyword : List Token} {inverse : Bool}
    (hkeyword : IsKeyword keyword inverse) : IsKeyword (keyword.map f) inverse := by
  cases hkeyword with
  | none => exact .none
  | not hnot => exact .not (h.kind_eq hnot)
  | only honly => exact .only (h.kind_eq honly)

theorem IsPostHack.carry {type : Token} {hack : List Token} {post : String}
    (h : Carries input input' r f (type :: hack)) (hpost : IsPostHack input type hack post) :
    IsPostHack input' (f type) (hack.map f) (r.postHack post) := by
  cases hpost with
  | none =>
    rw [r.postHack_empty]
    exact .none
  | hack hhack htext => exact .hack (h.kind_eq hhack) (h.behind List.infix_rfl hhack htext)

theorem IsClause.carry (h : Carries input input' r f ts) {q : Query}
    (hts : IsClause input ts q) : IsClause input' (ts.map f) (q.respell r) := by
  cases hts with
  | @typed type next hack keyword postHack tests pre post inverse es htype hnext hpre hkeyword hpost
      htests =>
    have hnext' : f next ∈ (keyword.map f ++ [f type]).head? := by
      have hhead := congrArg (Option.map f) hnext
      rwa [← List.head?_map, List.map_append] at hhead
    have hclause := IsClause.typed (h.kind_eq htype) hnext'
      (hpre.carry (h.of_infix (isInfix_preHack hnext))) (hkeyword.carry h)
      (hpost.carry (h.of_infix isInfix_postHack)) (htests.carry (h.of_infix isInfix_tests))
    simp only [List.map_append, List.map_cons]
    rw [h.text] at hclause
    exact hclause
  | untyped htest htests =>
    have hclause := IsClause.untyped (htest.carry (h.of_infix (List.prefix_append _ _).isInfix))
      (htests.carry (h.of_infix (List.suffix_append _ _).isInfix))
    rw [List.map_append, Query.respell, r.word_all, r.preHack_empty, r.postHack_empty]
    exact hclause

/-- **A derivation is carried with its tokens**, to the respelled query list. -/
theorem IsQueryList.carry (h : Carries input input' r f ts) {l : QueryList}
    (hts : IsQueryList input ts l) : IsQueryList input' (ts.map f) (l.map (Query.respell r)) := by
  induction hts with
  | one hclause => exact .one (hclause.carry h)
  | @more clause rest comma q l hclause hcomma _ ih =>
    rw [List.map_append, List.map_cons]
    exact .more (hclause.carry (h.of_infix (List.prefix_append _ _).isInfix)) (h.kind_eq hcomma)
      (ih (h.of_infix isInfix_rest))

end Carry

end MediaQuery
