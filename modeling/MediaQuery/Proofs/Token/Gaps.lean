import Mathlib.Data.List.Forall2
import MediaQuery.Proofs.Token.Order

/-!
# Gaps — what stands between the tokens of a text

The tokens of a text tile it (`tiles_tokenize`): each stands at its span, and between them is
nothing but blanks. A tiling is a statement about offsets, so it can be turned into one about parts:
the gaps before, between and behind the tokens are slices of the text, and gaps and tokens put
together in order are the text again (`Tiles.exists_gaps`).
-/

namespace MediaQuery

/-- The spans that the tokens leave: from an offset up to the first token, and from the end of each
up to the start of the next. -/
def gapSpans (offset : Nat) : List Token → List Span
  | [] => []
  | t :: ts => ⟨offset, t.span.start⟩ :: gapSpans t.span.stop ts

/-! ## Tokens tile their text -/

/-- A blank before a tiled text belongs to its first gap. -/
theorem Tiles.blank {offset : Nat} {c : Char} {cs : List Char} {tokens : List Token}
    (hc : isBlank c = true) (h : Tiles (offset + c.utf8Size) cs tokens) :
    Tiles offset (c :: cs) tokens := by
  cases h with
  | done hgap =>
    rw [Nat.add_assoc, ← byteLength_cons]
    exact .done (List.forall_mem_cons.mpr ⟨hc, hgap⟩)
  | token hgap hblank hkind htail =>
    rw [Nat.add_assoc offset, ← byteLength_cons] at htail ⊢
    exact .token (List.forall_mem_cons.mpr ⟨hc, hgap⟩) hblank hkind htail

/-- A token before a tiled text stands behind an empty gap. -/
theorem Tiles.lexeme {offset : Nat} {kind : Kind} {word rest : List Char} {tokens : List Token}
    (hlex : Lexes kind word rest) (h : Tiles (offset + byteLength word) rest tokens) :
    Tiles offset (word ++ rest) (Token.ofWord kind offset word :: tokens) := by
  have hkind : kind ≠ .eof := by
    rintro rfl
    exact hlex.admits
  obtain ⟨c, cs, rfl, hc, -⟩ := hlex.lexeme_eq
  exact @Tiles.token offset [] kind c cs rest tokens (fun _ hd => absurd hd List.not_mem_nil) hc
    hkind h

/-- The tokens of a text with the mark of its end tile it. -/
theorem tiles_scan (offset : Nat) (cs : List Char) :
    Tiles offset cs (scan offset cs ++ [Token.endAt (offset + byteLength cs)]) := by
  fun_induction scan offset cs with
  | case1 offset => exact .done fun _ hd => absurd hd List.not_mem_nil
  | case2 offset c cs hc ih =>
    rw [byteLength_cons, ← Nat.add_assoc]
    exact ih.blank hc
  | case3 offset c cs hc stop ih =>
    have htail := ih.lexeme (lexes_lexeme (Bool.eq_false_iff.mpr hc) cs)
    rwa [Nat.add_assoc, ← byteLength_append, lexeme_append] at htail

/-- **The tokens of a text tile it.** -/
theorem tiles_tokenize (input : String) : Tiles 0 input.toList (tokenize input) := by
  have htiles := tiles_scan 0 input.toList
  rwa [Nat.zero_add] at htiles

/-! ## Gaps and tokens rebuild the text -/

/-- The gaps of a tiling are slices of the text that hold blanks only, and gaps and tokens in turn
are the text. The text may stand behind another one of as many bytes as the offset. -/
theorem Tiles.exists_gaps {offset : Nat} {text : List Char} {tokens : List Token}
    (h : Tiles offset text tokens) (front : List Char) (hfront : byteLength front = offset) :
    ∃ gaps, List.Forall₂ (fun span gap => slice? (front ++ text) span = some gap ∧
        ∀ c ∈ gap, isBlank c = true) (gapSpans offset tokens) gaps ∧
      text = (List.zipWith (fun gap t => gap ++ t.text.toList) gaps tokens).flatten := by
  induction h generalizing front with
  | @done offset gap hgap =>
    have hslice : slice? (front ++ gap) ⟨offset, offset + byteLength gap⟩ = some gap :=
      slice?_eq_some_iff.mpr ⟨front, [], (List.append_nil _).symm, hfront, by rw [hfront]⟩
    refine ⟨[gap], .cons ⟨hslice, hgap⟩ .nil, ?_⟩
    exact (List.append_nil gap).symm.trans (List.append_nil _).symm
  | @token offset gap kind c cs rest tokens hgap hc hkind htail ih =>
    have htext : front ++ (gap ++ c :: cs ++ rest) = front ++ gap ++ c :: cs ++ rest := by
      simp only [List.append_assoc]
    have hslice : slice? (front ++ gap ++ c :: cs ++ rest) ⟨offset, offset + byteLength gap⟩ =
        some gap := by
      refine slice?_eq_some_iff.mpr ⟨front, c :: cs ++ rest, ?_, hfront, by rw [hfront]⟩
      rw [List.append_assoc]
    obtain ⟨gaps, hgaps, hrest⟩ := ih (front ++ gap ++ c :: cs)
      (by rw [byteLength_append, byteLength_append, hfront])
    refine ⟨gap :: gaps, ?_, ?_⟩
    · rw [htext]
      exact .cons ⟨hslice, hgap⟩ hgaps
    · rw [List.zipWith_cons_cons, List.flatten_cons, ← hrest, String.toList_ofList]

/-- **Tokens and blanks are all there is to a text.** The end is marked by the last token and no
other; every other token is a non-empty slice of the text that begins with no blank; each starts
behind the end of the one before it; and the gaps before, between and behind them hold blanks only,
so that gaps and tokens put together are the text. -/
theorem tokenize_partition (input : String) :
    ∃ words gaps,
      tokenize input =
        words ++ [⟨.eof, ⟨byteLength input.toList, byteLength input.toList⟩, ""⟩] ∧
      (∀ t ∈ words, t.kind ≠ .eof ∧ t.span.start < t.span.stop ∧ t.span.Fits input.toList ∧
        slice? input.toList t.span = some t.text.toList ∧
        ∃ c cs, t.text.toList = c :: cs ∧ isBlank c = false) ∧
      (tokenize input).Pairwise
        (fun t u => t.span.start < u.span.start ∧ t.span.stop ≤ u.span.start) ∧
      List.Forall₂ (fun span gap => slice? input.toList span = some gap ∧
        ∀ c ∈ gap, isBlank c = true) (gapSpans 0 (tokenize input)) gaps ∧
      input.toList =
        (List.zipWith (fun gap t => gap ++ t.text.toList) gaps (tokenize input)).flatten := by
  obtain ⟨gaps, hgaps, htext⟩ := (tiles_tokenize input).exists_gaps [] rfl
  refine ⟨scan 0 input.toList, gaps, rfl, ?_, ?_, hgaps, htext⟩
  · intro t ht
    have hmem : t ∈ tokenize input := mem_tokenize_iff.mpr (.inl ht)
    obtain ⟨front, word, rest, -, hlex, heq⟩ := exists_word_of_mem_scan ht
    obtain ⟨c, cs, rfl, hc, -⟩ := hlex.lexeme_eq
    have hword : t.text.toList = c :: cs := by
      rw [heq]
      exact String.toList_ofList
    exact ⟨kind_ne_eof_of_mem_scan ht, (bounds_of_mem_scan ht).2.1, fits_of_mem_tokenize hmem,
      slice?_of_mem_tokenize hmem, c, cs, hword, hc⟩
  · exact (pairwise_start_tokenize input).and (pairwise_tokenize input)

end MediaQuery
