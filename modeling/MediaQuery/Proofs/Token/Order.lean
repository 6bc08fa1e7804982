import MediaQuery.Proofs.Token.Boundary

/-!
# Order — where the tokens of a text stand

A span names a part of a text exactly if it runs forward and both of its ends lie between two
characters (`exists_slice?_iff`). The tokens of a text have such spans, each of which names the
token's own text (`slice?_of_mem_tokenize`), and every token ends before the next one starts
(`pairwise_tokenize`). So any two ends of tokens, taken in order, name a part of the text.
-/

namespace MediaQuery

/-! ## Spans that fit a text -/

/-- The byte offset lies between two characters of the text, or at an end of it. -/
def IsBoundary (text : List Char) (n : Nat) : Prop :=
  ∃ front back, text = front ++ back ∧ byteLength front = n

/-- The span runs forward within the text and cuts no character at its ends. -/
structure Span.Fits (span : Span) (text : List Char) : Prop where
  forward : span.start ≤ span.stop
  within : span.stop ≤ byteLength text
  start : IsBoundary text span.start
  stop : IsBoundary text span.stop

theorem isBoundary_byteLength (text : List Char) : IsBoundary text (byteLength text) :=
  ⟨text, [], (List.append_nil text).symm, rfl⟩

theorem IsBoundary.le {text : List Char} {n : Nat} (h : IsBoundary text n) :
    n ≤ byteLength text := by
  obtain ⟨front, back, rfl, rfl⟩ := h
  rw [byteLength_append]
  exact Nat.le_add_right _ _

/-- Two boundaries in order are the ends of a span that fits. -/
theorem IsBoundary.fits {text : List Char} {n m : Nat} (hn : IsBoundary text n)
    (hm : IsBoundary text m) (hle : n ≤ m) : (⟨n, m⟩ : Span).Fits text :=
  ⟨hle, hm.le, hn, hm⟩

/-- **A span names a part of a text exactly if it fits.** -/
theorem exists_slice?_iff {text : List Char} {span : Span} :
    (∃ part, slice? text span = some part) ↔ span.Fits text := by
  constructor
  · rintro ⟨part, h⟩
    obtain ⟨front, rest, htext, hstart, hstop⟩ := slice?_eq_some_iff.mp h
    have hboundary : IsBoundary text span.start :=
      ⟨front, part ++ rest, by rw [htext, List.append_assoc], hstart⟩
    have hboundary' : IsBoundary text span.stop :=
      ⟨front ++ part, rest, htext, by rw [byteLength_append, hstop]⟩
    exact hboundary.fits hboundary' (by omega)
  · rintro ⟨hle, -, ⟨front, back, htext, hstart⟩, front', back', htext', hstop⟩
    have happ : front ++ back = front' ++ back' := htext.symm.trans htext'
    rcases List.append_eq_append_iff.mp happ with ⟨part, rfl, -⟩ | ⟨part, rfl, -⟩
    · refine ⟨part, slice?_eq_some_iff.mpr ⟨front, back', htext', hstart, ?_⟩⟩
      rw [← hstop, byteLength_append]
    · -- the span is empty, so the two fronts are the same
      have hpart : byteLength part = 0 := by
        rw [byteLength_append] at hstart
        omega
      obtain rfl := byteLength_eq_zero_iff.mp hpart
      rw [List.append_nil] at hstart
      refine ⟨[], slice?_eq_some_iff.mpr ⟨front', back', ?_, hstart, ?_⟩⟩
      · rw [List.append_nil, htext']
      · rw [byteLength_nil, Nat.add_zero, hstop]

/-! ## Places of tokens -/

/-- A token of a text is a word of it, at the place of the word. -/
theorem exists_word_of_mem_scan {offset : Nat} {cs : List Char} {t : Token}
    (h : t ∈ scan offset cs) :
    ∃ front word rest, cs = front ++ word ++ rest ∧ Lexes t.kind word rest ∧
      t = Token.ofWord t.kind (offset + byteLength front) word := by
  obtain ⟨xs, ys, hscan⟩ := List.append_of_mem h
  obtain ⟨front, tail, rfl, -, htail, -⟩ := scan_eq_append hscan
  obtain ⟨gap, kind, word, rest, rfl, -, hlex, rfl, -⟩ := exists_lexes_of_scan_eq_cons htail
  refine ⟨front ++ gap, word, rest, by simp only [List.append_assoc], hlex, ?_⟩
  rw [byteLength_append, ← Nat.add_assoc]
  rfl

/-- A token takes at least one byte, and lies in the text. -/
theorem bounds_of_mem_scan {offset : Nat} {cs : List Char} {t : Token} (h : t ∈ scan offset cs) :
    offset ≤ t.span.start ∧ t.span.start < t.span.stop ∧
      t.span.stop ≤ offset + byteLength cs := by
  obtain ⟨front, word, rest, rfl, hlex, ht⟩ := exists_word_of_mem_scan h
  have hpos : byteLength word ≠ 0 := fun hzero => hlex.ne_nil (byteLength_eq_zero_iff.mp hzero)
  rw [ht]
  simp only [Token.ofWord, byteLength_append]
  omega

/-- Every token ends before the next one starts. -/
theorem pairwise_scan (offset : Nat) (cs : List Char) :
    (scan offset cs).Pairwise fun t u => t.span.stop ≤ u.span.start := by
  fun_induction scan offset cs with
  | case1 => exact .nil
  | case2 offset c cs hc ih => exact ih
  | case3 offset c cs hc stop ih =>
    refine List.pairwise_cons.mpr ⟨?_, ih⟩
    intro u hu
    exact (bounds_of_mem_scan hu).1

/-- Blanks alone hold no token. -/
theorem scan_blanks {gap : List Char} (h : ∀ c ∈ gap, isBlank c = true) (offset : Nat) :
    scan offset gap = [] := by
  have hscan := scan_gap h offset []
  rw [List.append_nil] at hscan
  rw [hscan, scan]

/-- Where a token list is cut, so is the text: right ahead of the word of the first token behind the
cut. -/
theorem exists_front_of_scan {offset : Nat} {cs : List Char} {xs ys : List Token} {t : Token}
    (h : scan offset cs = xs ++ t :: ys) :
    ∃ front word rest, cs = front ++ (word ++ rest) ∧ scan offset front = xs ∧
      Lexes t.kind word rest ∧ t.span.start = offset + byteLength front := by
  induction xs generalizing offset cs with
  | nil =>
    obtain ⟨gap, kind, word, rest, rfl, hgap, hlex, rfl, -⟩ := exists_lexes_of_scan_eq_cons h
    exact ⟨gap, word, rest, rfl, scan_blanks hgap offset, hlex, rfl⟩
  | cons u xs ih =>
    obtain ⟨gap, kind, word, tail, rfl, hgap, hlex, rfl, hts⟩ := exists_lexes_of_scan_eq_cons h
    obtain ⟨front, word', rest, rfl, hfront, hlex', hstart⟩ := ih hts.symm
    refine ⟨gap ++ (word ++ front), word', rest, by simp only [List.append_assoc], ?_, hlex', ?_⟩
    · rw [scan_gap hgap, scan_of_lexes (hlex.cut (List.prefix_append front _)), hfront]
    · rw [hstart]
      simp only [byteLength_append, Nat.add_assoc]

/-! ## The tokens of a text with its end -/

section Tokenize

variable {input : String} {t : Token}

theorem mem_tokenize_iff :
    t ∈ tokenize input ↔ t ∈ scan 0 input.toList ∨ t = Token.endAt (byteLength input.toList) := by
  rw [tokenize, List.mem_append, List.mem_singleton]

/-- A token's span names its text. -/
theorem slice?_of_mem_tokenize (h : t ∈ tokenize input) :
    slice? input.toList t.span = some t.text.toList := by
  apply slice?_eq_some_iff.mpr
  rcases mem_tokenize_iff.mp h with hmem | rfl
  · obtain ⟨front, word, rest, htext, -, ht⟩ := exists_word_of_mem_scan hmem
    rw [Nat.zero_add] at ht
    rw [ht]
    simp only [Token.ofWord, String.toList_ofList]
    exact ⟨front, rest, htext, rfl, rfl⟩
  · refine ⟨input.toList, [], ?_, rfl, rfl⟩
    rw [List.append_nil]
    exact (List.append_nil _).symm

theorem fits_of_mem_tokenize (h : t ∈ tokenize input) : t.span.Fits input.toList :=
  exists_slice?_iff.mp ⟨_, slice?_of_mem_tokenize h⟩

/-- Every token of a text ends before the next one starts, the end of the text included. -/
theorem pairwise_tokenize (input : String) :
    (tokenize input).Pairwise fun t u => t.span.stop ≤ u.span.start := by
  rw [tokenize, List.pairwise_append]
  refine ⟨pairwise_scan 0 input.toList, List.pairwise_singleton _ _, ?_⟩
  intro t ht u hu
  obtain rfl := List.mem_singleton.mp hu
  have hbounds := bounds_of_mem_scan ht
  rw [Nat.zero_add] at hbounds
  exact hbounds.2.2

/-- No two tokens of a text start at the same place. -/
theorem pairwise_start_tokenize (input : String) :
    (tokenize input).Pairwise fun t u => t.span.start < u.span.start := by
  have hbefore := pairwise_tokenize input
  rw [tokenize, List.pairwise_append] at hbefore ⊢
  obtain ⟨hscan, -, hend⟩ := hbefore
  refine ⟨hscan.imp_of_mem ?_, List.pairwise_singleton _ _, ?_⟩
  · intro t u ht _ hle
    exact Nat.lt_of_lt_of_le (bounds_of_mem_scan ht).2.1 hle
  · intro t ht u hu
    exact Nat.lt_of_lt_of_le (bounds_of_mem_scan ht).2.1 (hend t ht u hu)

/-- A text up to a token of it has the tokens before that one. -/
theorem exists_front_of_tokenize {xs ys : List Token} (h : tokenize input = xs ++ t :: ys) :
    ∃ front back, input.toList = front ++ back ∧ scan 0 front = xs ∧
      byteLength front = t.span.start := by
  rcases List.eq_nil_or_concat ys with rfl | ⟨ys, last, rfl⟩
  · obtain ⟨hscan, hend⟩ := List.append_inj' h rfl
    obtain rfl := (List.cons.inj hend).1
    exact ⟨input.toList, [], (List.append_nil _).symm, hscan, rfl⟩
  · rw [List.concat_eq_append, ← List.cons_append, ← List.append_assoc] at h
    obtain ⟨hscan, -⟩ := List.append_inj' h rfl
    obtain ⟨front, word, rest, htext, hfront, -, hstart⟩ := exists_front_of_scan hscan
    rw [Nat.zero_add] at hstart
    exact ⟨front, word ++ rest, htext, hfront, hstart.symm⟩

/-- The place where a token starts says which one it is. -/
theorem index_eq_of_start {u : Token} {i j : Nat} (ht : (tokenize input)[i]? = some t)
    (hu : (tokenize input)[j]? = some u) (h : t.span.start = u.span.start) : i = j := by
  obtain ⟨hi, rfl⟩ := List.getElem?_eq_some_iff.mp ht
  obtain ⟨hj, rfl⟩ := List.getElem?_eq_some_iff.mp hu
  have hpair := List.pairwise_iff_getElem.mp (pairwise_start_tokenize input)
  rcases Nat.lt_trichotomy i j with hlt | heq | hlt
  · have hstart := hpair i j hi hj hlt
    omega
  · exact heq
  · have hstart := hpair j i hj hi hlt
    omega

end Tokenize

end MediaQuery
