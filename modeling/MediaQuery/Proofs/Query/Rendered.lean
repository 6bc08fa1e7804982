import Mathlib
import MediaQuery.Proofs.Query.Comma
import MediaQuery.Proofs.Query.Feature

/-!
# Renderings are read — every well-formed query list is what its text says

The rendering of a query is put together from texts whose tokens are known: a hack is found
whatever follows it, a name where no character goes on with it, and a separator splits the tokens
before it from those behind it. So a test is read by itself (`Expression.WellFormed.isTest`), the
beginning of a clause is (`Query.WellFormed.isClause_head`), and a clause may be continued by a test
(`IsClause.append_test`). Commas put the clauses together (`parse_render`).
-/

namespace MediaQuery

/-! ## Tests -/

/-- A text that reads as a value has the tokens of one, and they spell it. -/
theorem IsValueText.isValue_scan {v : String} (h : IsValueText v) :
    IsValue (scan 0 v.toList) ∧ Spells v (scan 0 v.toList) v := by
  obtain ⟨value, hscan, hvalue, hstart, hstop⟩ := h
  obtain rfl : scan 0 v.toList = value := List.append_cancel_right hscan
  refine ⟨hvalue, _, List.head?_eq_some_head hvalue.ne_nil, _,
    List.getLast?_eq_some_getLast hvalue.ne_nil, ?_⟩
  rw [hstart _ (List.head?_eq_some_head hvalue.ne_nil),
    hstop _ (List.getLast?_eq_some_getLast hvalue.ne_nil)]
  have hall := isPart_front v.toList []
  rwa [List.append_nil, String.ofList_toList] at hall

/-- The tokens of a test that begins with a name: the parenthesis, the name, and those of what
follows, which does not go on with the name. -/
theorem scan_test {name tail : List Char} (h : IsName name)
    (htail : ∀ c ∈ tail.head?, isNameChar c = false) :
    scan 0 ('(' :: (name ++ tail)) = Token.ofWord .leftParen 0 ['('] ::
      Token.ofWord .identifier 1 name :: scan (1 + byteLength name) tail := by
  have hopen : Lexes .leftParen ['('] (name ++ tail) := .mark (by decide) rfl
  have hscan := scan_of_lexes hopen 0
  rw [List.singleton_append] at hscan
  rw [hscan]
  exact congrArg _ (scan_of_lexes (.of_isName h htail) 1)

theorem scan_closeParen (offset : Nat) :
    scan offset [')'] = [Token.ofWord .rightParen offset [')']] := by
  rw [scan_separator (by decide), scan]
  rfl

/-- The tokens of a value with the colon before it and the parenthesis behind it. -/
theorem scan_renderValue (offset : Nat) (v : String) :
    scan offset (Expression.renderValue (some v) ++ [')']) =
      Token.ofWord .colon offset [':'] ::
        ((scan 0 v.toList).map (Token.shift (offset + 2)) ++
          [Token.ofWord .rightParen (offset + 2 + byteLength v.toList) [')']]) := by
  have hcolon : Lexes .colon [':'] ([' '] ++ (v.toList ++ [')'])) := .mark (by decide) rfl
  have hblank : ∀ c ∈ [' '], isBlank c = true := List.forall_mem_singleton.mpr (by decide)
  calc scan offset (Expression.renderValue (some v) ++ [')'])
      = scan offset ([':'] ++ ([' '] ++ (v.toList ++ [')']))) := rfl
    _ = Token.ofWord .colon offset [':'] :: scan (offset + 1 + 1) (v.toList ++ [')']) := by
        rw [scan_of_lexes hcolon, scan_gap hblank]
        rfl
    _ = _ := by
        rw [scan_append_separator (by decide), scan_closeParen, ← scan_add, Nat.add_zero]

/-- **A test is read from its rendering.** -/
theorem Expression.WellFormed.isTest {e : Expression} (h : e.WellFormed) :
    IsTest (String.ofList e.render) (scan 0 e.render) e := by
  obtain ⟨modifier, feature, value⟩ := e
  have hname : IsName (Modifier.lead modifier ++ feature.toList) := h.feature.isName_lead
  have hsplit := h.feature.splitModifier_lead
  have hrender : Expression.render ⟨modifier, feature, value⟩ =
      '(' :: ((Modifier.lead modifier ++ feature.toList) ++ (renderValue value ++ [')'])) := by
    simp only [Expression.render, List.append_assoc]
  generalize Modifier.lead modifier ++ feature.toList = name at hname hsplit hrender
  rw [hrender]
  cases value with
  | none =>
    cases modifier with
    | some modifier => exact absurd (h.bound rfl) Bool.false_ne_true
    | none =>
      rw [renderValue, List.nil_append, scan_test hname (by rintro c ⟨⟩; decide), scan_closeParen]
      exact .bare rfl rfl rfl hsplit
  | some v =>
    obtain ⟨hvalue, hspells⟩ := (h.value v rfl).isValue_scan
    have hlength : byteLength ('(' :: (name ++ [':', ' '])) = 1 + byteLength name + 2 := by
      rw [byteLength_cons, byteLength_append, Nat.add_assoc]
      rfl
    have htext : (String.ofList ('(' :: (name ++ (renderValue (some v) ++ [')'])))).toList =
        '(' :: (name ++ [':', ' ']) ++ v.toList ++ [')'] := by
      simp only [String.toList_ofList, renderValue, List.cons_append, List.append_assoc,
        List.nil_append]
    have hpart := isPart_ofList htext
    rw [hlength, String.ofList_toList] at hpart
    rw [scan_test hname (by rintro c ⟨⟩; decide), scan_renderValue]
    exact .valued rfl rfl rfl hvalue.shift rfl hsplit (hspells.shift hpart)

/-! ## The beginning of a clause -/

/-- A hack with blanks behind it is a token whatever follows, and the blanks go with it. -/
theorem IsPreHackText.exists_scan {pre : String} (h : IsPreHackText pre) (rest : List Char) :
    ∃ hack, scan 0 (pre.toList ++ rest) = hack ++ scan (byteLength pre.toList) rest ∧
      ∀ next : Token, next.span.start = byteLength pre.toList →
        IsPreHack (String.ofList (pre.toList ++ rest)) next hack pre := by
  rcases h with rfl | ⟨hack, gap, hpre, hhack, hgap⟩
  · exact ⟨[], rfl, fun _ _ => .none⟩
  · refine ⟨[Token.ofWord .hack 0 hack], ?_, fun next hnext => .hack rfl ?_⟩
    · rw [hpre, List.append_assoc, scan_of_lexes (.of_isHack hhack _), scan_gap hgap, Nat.zero_add,
        byteLength_append]
      rfl
    · have hpart := isPart_front pre.toList rest
      rw [String.ofList_toList, ← hnext] at hpart
      exact hpart

/-- What stands behind a media type does not go on with it. -/
theorem IsPostHackText.stop {post : String} (h : IsPostHackText post) :
    ∀ c ∈ post.toList.head?, isNameChar c = false := by
  intro c hc
  rcases h with rfl | ⟨gap, hack, hpost, hhack, hgap, hascii⟩
  · exact absurd hc (Option.not_mem_none c)
  · rw [hpost, List.head?_append] at hc
    cases gap with
    | nil =>
      cases hhack with
      | one => cases hc; decide
      | two => cases hc; decide
    | cons d gap =>
      obtain rfl : d = c := Option.some.inj hc
      have hseparator : isSeparator d = true := by
        simp only [isSeparator, hgap d List.mem_cons_self, hascii d rfl, decide_true, Bool.and_self,
          Bool.or_true]
      by_contra hname
      rw [not_isSeparator_of_isNameChar (Bool.eq_true_of_not_eq_false hname)] at hseparator
      cases hseparator

/-- The tokens behind a media type are the hack. -/
theorem IsPostHackText.isPostHack {post : String} (h : IsPostHackText post) {front : List Char}
    {type : Token} (htype : type.span.stop = byteLength front) :
    IsPostHack (String.ofList (front ++ post.toList)) type (scan (byteLength front) post.toList)
      post := by
  rcases h with rfl | ⟨gap, hack, hpost, hhack, hgap, -⟩
  · show IsPostHack _ type (scan (byteLength front) []) ""
    rw [scan]
    exact .none
  · have hpart := isPart_back front post.toList
    have hscan : scan (byteLength front) post.toList =
        [Token.ofWord .hack (byteLength front + byteLength gap) hack] := by
      have hcons := scan_of_lexes (.of_isHack hhack []) (byteLength front + byteLength gap)
      rw [List.append_nil] at hcons
      rw [hpost, scan_gap hgap, hcons, scan]
    rw [String.ofList_toList, ← htype] at hpart
    rw [hscan]
    refine .hack rfl ?_
    rw [hpost, byteLength_append, ← Nat.add_assoc, ← hpost, htype] at hpart
    rw [htype]
    exact hpart

/-- The text of the keyword of an inverted query. -/
def Query.renderKeyword (inverse : Bool) : List Char :=
  if inverse then ['n', 'o', 't', ' '] else []

/-- The text of a clause before its tests. -/
def Query.renderHead (q : Query) : List Char :=
  q.preTypeHack.toList ++ (renderKeyword q.inverse ++ (q.mediaType.toList ++ q.postTypeHack.toList))

theorem Query.render_eq (q : Query) : q.render =
    q.renderHead ++ q.expressions.flatMap fun e => [' ', 'a', 'n', 'd', ' '] ++ e.render := by
  simp only [render, renderHead, renderKeyword, List.append_assoc]

/-- The keyword is a token of its own, and the first of the two if it is there. -/
theorem exists_scan_keyword (inverse : Bool) (offset : Nat) (rest : List Char) :
    ∃ keyword, scan offset (Query.renderKeyword inverse ++ rest) =
        keyword ++ scan (offset + byteLength (Query.renderKeyword inverse)) rest ∧
      IsKeyword keyword inverse ∧
        ∀ type : Token, type.span.start = offset + byteLength (Query.renderKeyword inverse) →
          ∃ next ∈ (keyword ++ [type]).head?, next.span.start = offset := by
  cases inverse with
  | false => exact ⟨[], rfl, .none, fun type htype => ⟨type, rfl, htype⟩⟩
  | true =>
    have hword : IsIdentifier ['n', 'o', 't'] := .of_all (by decide) (by decide)
    have hlex : Lexes .not ['n', 'o', 't'] ([' '] ++ rest) :=
      .of_isIdentifier hword (by rintro c ⟨⟩; decide) (by rintro c ⟨⟩; decide)
    have hblank : ∀ c ∈ [' '], isBlank c = true := List.forall_mem_singleton.mpr (by decide)
    refine ⟨[Token.ofWord .not offset ['n', 'o', 't']], ?_, .not rfl, fun type _ => ⟨_, rfl, rfl⟩⟩
    calc scan offset (Query.renderKeyword true ++ rest)
        = scan offset (['n', 'o', 't'] ++ ([' '] ++ rest)) := rfl
      _ = _ := by
          rw [scan_of_lexes hlex, scan_gap hblank]
          rfl

/-- The media type is a token of its own, behind which the hack may stand. -/
theorem Query.WellFormed.exists_scan_type {q : Query} (h : q.WellFormed) (front : List Char) :
    ∃ (type : Token) (postHack : List Token),
      scan (byteLength front) (q.mediaType.toList ++ q.postTypeHack.toList) = type :: postHack ∧
        type.kind = .identifier ∧ type.text = q.mediaType ∧ type.span.start = byteLength front ∧
          IsPostHack (String.ofList (front ++ q.mediaType.toList ++ q.postTypeHack.toList)) type
            postHack q.postTypeHack := by
  have hlex : Lexes .identifier q.mediaType.toList q.postTypeHack.toList :=
    .of_isName h.mediaType h.postTypeHack.stop
  refine ⟨_, _, scan_of_lexes hlex _, rfl, String.ofList_toList, rfl, ?_⟩
  rw [← byteLength_append]
  exact h.postTypeHack.isPostHack (byteLength_append ..).symm

/-- **The beginning of a clause is read from its rendering.** -/
theorem Query.WellFormed.isClause_head {q : Query} (h : q.WellFormed) :
    IsClause (String.ofList q.renderHead) (scan 0 q.renderHead) { q with expressions := [] } := by
  obtain ⟨hack, hscan, hpre⟩ := h.preTypeHack.exists_scan
    (renderKeyword q.inverse ++ (q.mediaType.toList ++ q.postTypeHack.toList))
  obtain ⟨keyword, hscan', hkeyword, hfirst⟩ := exists_scan_keyword q.inverse
    (byteLength q.preTypeHack.toList) (q.mediaType.toList ++ q.postTypeHack.toList)
  obtain ⟨type, postHack, hscan'', hkind, hname, hstart, hpost⟩ :=
    h.exists_scan_type (q.preTypeHack.toList ++ renderKeyword q.inverse)
  rw [byteLength_append] at hscan'' hstart
  obtain ⟨next, hnext, hstart'⟩ := hfirst type hstart
  have htext : q.preTypeHack.toList ++ renderKeyword q.inverse ++ q.mediaType.toList ++
      q.postTypeHack.toList = q.renderHead := by
    simp only [renderHead, List.append_assoc]
  have htokens : scan 0 q.renderHead = hack ++ keyword ++ type :: (postHack ++ []) := by
    rw [renderHead, hscan, hscan', hscan'', List.append_nil, List.append_assoc]
  rw [htext] at hpost
  rw [htokens, ← hname]
  exact .typed hkind hnext (hpre next hstart') hkeyword hpost .none

/-! ## Clauses -/

/-- A clause with one more test behind it. -/
theorem IsClause.append_test {cs : List Char} {q : Query} {e : Expression}
    (h : IsClause (String.ofList cs) (scan 0 cs) q) (he : e.WellFormed) :
    IsClause (String.ofList (cs ++ ([' ', 'a', 'n', 'd', ' '] ++ e.render)))
      (scan 0 (cs ++ ([' ', 'a', 'n', 'd', ' '] ++ e.render))) (q.add e) := by
  have hword : IsIdentifier ['a', 'n', 'd'] := .of_all (by decide) (by decide)
  have hlex : Lexes .and ['a', 'n', 'd'] ([' '] ++ e.render) :=
    .of_isIdentifier hword (by rintro c ⟨⟩; decide) (by rintro c ⟨⟩; decide)
  have hblank : ∀ c ∈ [' '], isBlank c = true := List.forall_mem_singleton.mpr (by decide)
  have hscan : scan 0 (cs ++ ([' ', 'a', 'n', 'd', ' '] ++ e.render)) =
      scan 0 cs ++ Token.ofWord .and (byteLength cs + 1) ['a', 'n', 'd'] ::
        (scan 0 e.render).map (Token.shift (byteLength (cs ++ [' ', 'a', 'n', 'd', ' ']))) := by
    calc scan 0 (cs ++ ([' ', 'a', 'n', 'd', ' '] ++ e.render))
        = scan 0 cs ++ scan (byteLength cs)
            ([' '] ++ (['a', 'n', 'd'] ++ ([' '] ++ e.render))) := by
          have hsplit := scan_append_separator (s := ' ') (by decide) 0 cs
            (['a', 'n', 'd', ' '] ++ e.render)
          rwa [Nat.zero_add] at hsplit
      _ = _ := by
          rw [scan_gap hblank, scan_of_lexes hlex, scan_gap hblank, ← scan_add, byteLength_append]
          rfl
  have hclause := h.shift (isPart_front cs ([' ', 'a', 'n', 'd', ' '] ++ e.render))
  have htest := he.isTest.shift (isPart_back (cs ++ [' ', 'a', 'n', 'd', ' ']) e.render)
  rw [map_shift_zero] at hclause
  rw [List.append_assoc] at htest
  rw [hscan]
  exact hclause.add rfl htest

theorem IsClause.append_tests {es : List Expression} (hes : ∀ e ∈ es, e.WellFormed)
    {cs : List Char} {q : Query} (h : IsClause (String.ofList cs) (scan 0 cs) q) :
    let text := cs ++ es.flatMap fun e => [' ', 'a', 'n', 'd', ' '] ++ e.render
    IsClause (String.ofList text) (scan 0 text) { q with expressions := q.expressions ++ es } := by
  induction es generalizing cs q with
  | nil =>
    simp only [List.flatMap_nil, List.append_nil]
    exact h
  | cons e es ih =>
    obtain ⟨he, hes⟩ := List.forall_mem_cons.mp hes
    have hall := ih hes (h.append_test he)
    simp only [Query.add, List.append_assoc, List.flatMap_cons, List.singleton_append] at hall ⊢
    exact hall

/-- **A query is read from its rendering.** -/
theorem Query.WellFormed.parse_query {q : Query} (h : q.WellFormed) :
    parse (String.ofList q.render) = .ok [q] := by
  have hclause := h.isClause_head.append_tests h.expressions
  rw [parse_eq_ok_iff, String.toList_ofList, q.render_eq]
  exact .one hclause

/-! ## Lists -/

/-- Blanks before a text do not change what is read. -/
theorem parse_gap {gap cs : List Char} (hgap : AreBlanks gap) {l : QueryList}
    (h : parse (String.ofList cs) = .ok l) : parse (String.ofList (gap ++ cs)) = .ok l := by
  rw [parse_eq_ok_iff, String.toList_ofList] at h ⊢
  have hshift := h.shift (isPart_back gap cs)
  rw [← scan_add, Nat.add_zero] at hshift
  rw [scan_gap hgap, Nat.zero_add]
  exact hshift

/-- Texts that are read as one query each are read as a list, with a comma and blanks between
them. -/
theorem parse_intercalate {gap : List Char} (hgap : AreBlanks gap) {texts : List (List Char)}
    {l : QueryList}
    (h : List.Forall₂ (fun cs q => parse (String.ofList cs) = .ok [q]) texts l) (hne : l ≠ []) :
    parse (String.ofList ((',' :: gap).intercalate texts)) = .ok l := by
  induction h with
  | nil => exact absurd rfl hne
  | @cons cs q texts l hq htexts ih =>
    cases htexts with
    | nil =>
      rw [List.intercalate_singleton]
      exact hq
    | cons hq' htexts =>
      have hrest := ih (List.cons_ne_nil _ _)
      rw [List.intercalate_cons_cons, List.append_assoc, List.cons_append]
      exact parse_comma_of_parse hq (parse_gap hgap hrest)

/-- **Every well-formed query list is read from its rendering**, also with blanks behind the commas
of it. -/
theorem parse_render {l : QueryList} (hne : l ≠ []) (hl : ∀ q ∈ l, q.WellFormed) :
    parse l.render = .ok l ∧ ∀ gap, AreBlanks gap →
      parse (String.ofList ((',' :: gap).intercalate (l.map Query.render))) = .ok l := by
  have hall : List.Forall₂ (fun cs q => parse (String.ofList cs) = .ok [q])
      (l.map Query.render) l := by
    rw [List.forall₂_map_left_iff, List.forall₂_same]
    exact fun q hq => (hl q hq).parse_query
  exact ⟨parse_intercalate (fun _ h => absurd h List.not_mem_nil) hall hne,
    fun _ hgap => parse_intercalate hgap hall hne⟩

/-- A query with all the parts that one can have comes back from its text
`\\0 not tv \\9 and (max--o-max-x: 1/2\\9)`. -/
theorem parse_render_hacks :
    let q : Query := ⟨true, "\\0 ", "tv", " \\9", [⟨some .max, "-o-max-x", some "1/2\\9"⟩]⟩
    q.WellFormed ∧ parse (QueryList.render [q]) = .ok [q] := by
  have hvalue : IsValueText "1/2\\9" := by
    refine ⟨[⟨.number, ⟨0, 1⟩, "1"⟩, ⟨.slash, ⟨1, 2⟩, "/"⟩, ⟨.number, ⟨2, 3⟩, "2"⟩,
      ⟨.hack, ⟨3, 5⟩, "\\9"⟩], by cbv, ?_, by decide, by decide⟩
    exact .hacked (.fraction rfl rfl rfl (by decide) (by decide)) rfl
  have hblank : AreBlanks [' '] := List.forall_mem_singleton.mpr (by decide)
  have hfeature : IsFeature "-o-max-x" (some .max) :=
    ⟨List.all_eq_true.mp (by decide), 'o', by decide, by decide⟩
  have hquery : Query.WellFormed
      ⟨true, "\\0 ", "tv", " \\9", [⟨some .max, "-o-max-x", some "1/2\\9"⟩]⟩ := by
    refine ⟨.inr ⟨['\\', '0'], [' '], rfl, .one rfl, hblank⟩, ?_,
      .inr ⟨[' '], ['\\', '9'], rfl, .one rfl, hblank, by rintro c ⟨⟩; decide⟩, ?_⟩
    · exact ⟨.of_all (by decide) (by decide), by rintro c ⟨⟩; decide, by decide⟩
    · refine List.forall_mem_singleton.mpr ⟨hfeature, fun _ => rfl, ?_⟩
      intro v hv
      cases hv
      exact hvalue
  exact ⟨hquery, (parse_render (List.cons_ne_nil _ _) (List.forall_mem_singleton.mpr hquery)).1⟩

end MediaQuery
