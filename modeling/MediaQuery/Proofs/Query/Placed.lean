import MediaQuery.Proofs.Query.Shape
import MediaQuery.Proofs.Token.Boundary

/-!
# Placed tokens — the parts of an input that a token list names

The grammar keeps parts of the input: a value from its first token to its last, a hack from where it
starts to where the next token starts, and from where the media type stops to where the hack stops.
A token list is placed in the input if all these parts exist. The tokens of the input are
(`placed_scan`), and a placed token list with the shape of a query list is one
(`Shape.exists_isQueryList`).
-/

namespace MediaQuery

variable {input : String} {ts : List Token}

/-- A part of the input is what stands between its two offsets. -/
theorem isPart_iff {start stop : Nat} {part : String} : IsPart input start stop part ↔
    ∃ front back, input.toList = front ++ part.toList ++ back ∧ byteLength front = start ∧
      byteLength front + byteLength part.toList = stop :=
  slice?_eq_some_iff

theorem isPart_ofList {front part back : List Char} (h : input.toList = front ++ part ++ back) :
    IsPart input (byteLength front) (byteLength front + byteLength part) (String.ofList part) := by
  refine isPart_iff.mpr ⟨front, back, ?_, rfl, ?_⟩ <;> rw [String.toList_ofList]
  exact h

theorem isPart_front (as bs : List Char) :
    IsPart (String.ofList (as ++ bs)) 0 (byteLength as) (String.ofList as) := by
  have hsplit : (String.ofList (as ++ bs)).toList = [] ++ as ++ bs := by
    rw [String.toList_ofList, List.nil_append]
  have hpart := isPart_ofList hsplit
  rwa [byteLength_nil, Nat.zero_add] at hpart

theorem isPart_back (as bs : List Char) :
    IsPart (String.ofList (as ++ bs)) (byteLength as) (byteLength as + byteLength bs)
      (String.ofList bs) := by
  have hsplit : (String.ofList (as ++ bs)).toList = as ++ bs ++ [] := by
    rw [String.toList_ofList, List.append_nil]
  exact isPart_ofList hsplit

theorem isPart_append_left (a b : String) : IsPart (a ++ b) 0 (byteLength a.toList) a :=
  isPart_iff.mpr ⟨[], b.toList, String.toList_append, rfl, Nat.zero_add _⟩

theorem isPart_append_right (a b : String) :
    IsPart (a ++ b) (byteLength a.toList) (byteLength a.toList + byteLength b.toList) b := by
  refine isPart_iff.mpr ⟨a.toList, [], ?_, rfl, rfl⟩
  rw [String.toList_append, List.append_nil]

theorem Spells.unique {us : List Token} {text other : String} (h : Spells input us text)
    (h' : Spells input us other) : text = other := by
  obtain ⟨first, hfirst, last, hlast, hpart⟩ := h
  obtain ⟨first', hfirst', last', hlast', hpart'⟩ := h'
  obtain rfl := Option.mem_unique hfirst hfirst'
  obtain rfl := Option.mem_unique hlast hlast'
  exact hpart.unique hpart'

/-! ## Tokens of a text and the parts between them -/

/-- Tokens in the middle of a text are those of the part that they spell, so many bytes later. -/
theorem exists_part_of_infix {us : List Token} (h : us <:+: scan 0 input.toList) (hne : us ≠ []) :
    ∃ text n, Spells input us text ∧ us = (scan 0 text.toList).map (Token.shift n) ∧
      (∀ t ∈ us.head?, t.span.start = n) ∧
        ∀ t ∈ us.getLast?, t.span.stop = n + byteLength text.toList := by
  obtain ⟨xs, ys, h⟩ := h
  obtain ⟨front, part, back, htext, hus, hstart, hstop⟩ := exists_part_of_scan h.symm hne
  simp only [Nat.zero_add] at hus hstart hstop
  refine ⟨String.ofList part, byteLength front, ?_, ?_, hstart, ?_⟩
  · refine ⟨us.head hne, List.head?_eq_some_head hne, us.getLast hne,
      List.getLast?_eq_some_getLast hne, ?_⟩
    rw [hstart _ (List.head?_eq_some_head hne), hstop _ (List.getLast?_eq_some_getLast hne)]
    exact isPart_ofList htext
  · rw [String.toList_ofList, ← scan_add, Nat.add_zero, hus]
  · rw [String.toList_ofList]
    exact hstop

/-- Of two tokens that follow each other, the first with the blanks behind it is a part of the
input, and the second with the blanks before it. -/
theorem exists_gap_of_infix {t u : Token} (h : [t, u] <:+: scan 0 input.toList) :
    ∃ word gap word' back, (∀ c ∈ gap, isBlank c = true) ∧
      Lexes t.kind word (gap ++ (word' ++ back)) ∧ Lexes u.kind word' back ∧
        IsPart input t.span.start u.span.start (String.ofList (word ++ gap)) ∧
          IsPart input t.span.stop u.span.stop (String.ofList (gap ++ word')) ∧
            t.text = String.ofList word ∧ u.text = String.ofList word' := by
  obtain ⟨xs, ys, h⟩ := h
  rw [List.append_assoc] at h
  obtain ⟨front, word, gap, word', back, htext, hgap, hlex, hlex', ht, hu⟩ :=
    exists_gap_of_scan h.symm
  refine ⟨word, gap, word', back, hgap, hlex, hlex', ?_, ?_, by rw [ht]; rfl, by rw [hu]; rfl⟩
  · have hsplit : input.toList = front ++ (word ++ gap) ++ (word' ++ back) := by
      simp only [htext, List.append_assoc]
    rw [ht, hu]
    simp only [Token.ofWord, Nat.zero_add, Nat.add_assoc, ← byteLength_append word]
    exact isPart_ofList hsplit
  · have hsplit : input.toList = (front ++ word) ++ (gap ++ word') ++ back := by
      simp only [htext, List.append_assoc]
    rw [ht, hu]
    simp only [Token.ofWord, Nat.zero_add, ← byteLength_append front]
    rw [Nat.add_assoc, ← byteLength_append gap]
    exact isPart_ofList hsplit

/-! ## Placed token lists -/

/-- The parts of the input that the grammar may keep of the tokens exist. -/
structure Placed (input : String) (ts : List Token) : Prop where
  spells : ∀ {us}, us <:+: ts → us ≠ [] → ∃ text, Spells input us text
  upTo : ∀ {t u}, [t, u] <:+: ts → ∃ text, IsPart input t.span.start u.span.start text
  behind : ∀ {t u}, [t, u] <:+: ts → ∃ text, IsPart input t.span.stop u.span.stop text

theorem Placed.of_infix (h : Placed input ts) {us : List Token} (hus : us <:+: ts) :
    Placed input us :=
  ⟨fun h' => h.spells (h'.trans hus), fun h' => h.upTo (h'.trans hus),
    fun h' => h.behind (h'.trans hus)⟩

/-- The tokens of a text are placed in it. -/
theorem placed_scan (input : String) : Placed input (scan 0 input.toList) where
  spells h hne := by
    obtain ⟨text, n, htext, -⟩ := exists_part_of_infix h hne
    exact ⟨text, htext⟩
  upTo h := by
    obtain ⟨word, gap, word', back, -, -, -, hpart, -⟩ := exists_gap_of_infix h
    exact ⟨_, hpart⟩
  behind h := by
    obtain ⟨word, gap, word', back, -, -, -, -, hpart, -⟩ := exists_gap_of_infix h
    exact ⟨_, hpart⟩

/-! ## Shapes of placed token lists -/

namespace Shape

theorem exists_isTest (hp : Placed input ts) (h : ts.map Token.spelling ∈ test) :
    ∃ e, IsTest input ts e := by
  rcases mem_test_iff.mp h with
    ⟨o, n, c, rfl, ho, hn, hm, hc⟩ | ⟨o, n, k, v, c, rfl, ho, hn, hk, hv, hc⟩
  · exact ⟨_, .bare ho hn hc (Prod.ext hm rfl)⟩
  · obtain ⟨text, htext⟩ := hp.spells ⟨[o, n, k], [c], rfl⟩ hv.ne_nil
    exact ⟨_, .valued ho hn hk hv hc rfl htext⟩

theorem exists_areTests (hp : Placed input ts) (h : ts.map Token.spelling ∈ tests) :
    ∃ es, AreTests input ts es := by
  rw [tests, mem_kstar_iff] at h
  obtain ⟨tss, rfl, htss⟩ := h
  induction tss with
  | nil => exact ⟨[], .none⟩
  | cons us tss ih =>
    rw [List.flatten_cons] at hp ⊢
    obtain ⟨hus, htail⟩ := List.forall_mem_cons.mp htss
    obtain ⟨_, test, rfl, hmark, htest⟩ := mem_mul_iff.mp hus
    obtain ⟨conjunction, rfl, hand⟩ := mem_mark_iff.mp hmark
    obtain ⟨e, he⟩ := exists_isTest (hp.of_infix ⟨[conjunction], tss.flatten, rfl⟩) htest
    obtain ⟨es, hes⟩ := ih htail (hp.of_infix (List.suffix_append _ _).isInfix)
    exact ⟨e :: es, .more hand he hes⟩

/-- The hack before a media type has a text. -/
theorem exists_isPreHack {hack : List Token} {next : Token} {more : List Token}
    (hp : Placed input (hack ++ next :: more))
    (h : hack = [] ∨ ∃ t, hack = [t] ∧ t.kind = .hack) : ∃ pre, IsPreHack input next hack pre := by
  rcases h with rfl | ⟨t, rfl, ht⟩
  · exact ⟨"", .none⟩
  · obtain ⟨text, htext⟩ := hp.upTo ⟨[], more, rfl⟩
    exact ⟨text, .hack ht htext⟩

/-- The hack after a media type has a text. -/
theorem exists_isPostHack {postHack : List Token} {type : Token} {more : List Token}
    (hp : Placed input (type :: (postHack ++ more)))
    (h : postHack = [] ∨ ∃ t, postHack = [t] ∧ t.kind = .hack) :
    ∃ post, IsPostHack input type postHack post := by
  rcases h with rfl | ⟨t, rfl, ht⟩
  · exact ⟨"", .none⟩
  · obtain ⟨text, htext⟩ := hp.behind ⟨[], more, rfl⟩
    exact ⟨text, .hack ht htext⟩

theorem exists_isClause (hp : Placed input ts) (h : ts.map Token.spelling ∈ clause) :
    ∃ q, IsClause input ts q := by
  simp only [clause, Language.mem_add, mem_mul_iff, mem_optional_iff, mem_mark_iff] at h
  rcases h with ⟨hack, _, rfl, hhack, keyword, _, rfl, hkeyword, _, _, rfl, ⟨type, rfl, htype⟩,
    postHack, tests, rfl, hpostHack, htests⟩ | ⟨test, tests, rfl, htest, htests⟩
  · obtain ⟨es, hes⟩ := exists_areTests
      (hp.of_infix ⟨hack ++ (keyword ++ type :: postHack), [], by simp⟩) htests
    obtain ⟨post, hpost⟩ := exists_isPostHack
      (hp.of_infix ⟨hack ++ keyword, [], by simp⟩ : Placed input (type :: (postHack ++ tests)))
      hpostHack
    obtain ⟨inverse, hkeyword⟩ : ∃ inverse, IsKeyword keyword inverse := by
      rcases hkeyword with rfl | ⟨t, rfl, ht⟩ | ⟨t, rfl, ht⟩
      · exact ⟨false, .none⟩
      · exact ⟨true, .not ht⟩
      · exact ⟨false, .only ht⟩
    have hne : keyword ++ [type] ≠ [] :=
      List.append_ne_nil_of_right_ne_nil keyword (List.cons_ne_nil type [])
    obtain ⟨next, more, hnext⟩ := List.exists_cons_of_ne_nil hne
    have hp' : Placed input (hack ++ next :: (more ++ (postHack ++ tests))) := by
      rw [← List.cons_append, ← hnext]
      simpa only [List.append_assoc] using hp
    obtain ⟨pre, hpre⟩ := exists_isPreHack hp' hhack
    refine ⟨⟨inverse, pre, type.text, post, es⟩, ?_⟩
    have hclause := IsClause.typed htype (by rw [hnext]; rfl) hpre hkeyword hpost hes
    simpa only [List.append_assoc, List.cons_append, List.nil_append] using hclause
  · obtain ⟨e, he⟩ := exists_isTest (hp.of_infix (List.prefix_append _ _).isInfix) htest
    obtain ⟨es, hes⟩ := exists_areTests (hp.of_infix (List.suffix_append _ _).isInfix) htests
    exact ⟨_, .untyped he hes⟩

/-- **A placed token list with the shape of a query list is one.** -/
theorem exists_isQueryList (hp : Placed input ts) (h : ts.map Token.spelling ∈ queryList) :
    ∃ l, IsQueryList input ts l := by
  simp only [queryList, mem_mul_iff, mem_kstar_iff] at h
  obtain ⟨first, _, rfl, hfirst, tss, rfl, htss⟩ := h
  induction tss generalizing first with
  | nil =>
    rw [List.flatten_nil, List.append_nil] at hp ⊢
    obtain ⟨q, hq⟩ := exists_isClause hp hfirst
    exact ⟨[q], .one hq⟩
  | cons us tss ih =>
    obtain ⟨hus, htail⟩ := List.forall_mem_cons.mp htss
    obtain ⟨_, second, rfl, hmark, hsecond⟩ := hus
    obtain ⟨comma, rfl, hcomma⟩ := mem_mark_iff.mp hmark
    obtain ⟨q, hq⟩ := exists_isClause (hp.of_infix (List.prefix_append _ _).isInfix) hfirst
    obtain ⟨l, hl⟩ := ih second hsecond htail
      (hp.of_infix ⟨first ++ [comma], [], by simp⟩)
    refine ⟨q :: l, ?_⟩
    have hlist := IsQueryList.more hq hcomma hl
    simpa only [List.flatten_cons, List.append_assoc, List.cons_append, List.nil_append] using hlist

end Shape

end MediaQuery
