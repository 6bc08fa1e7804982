import MediaQuery.Proofs.Token.Lexes

/-!
# Boundaries — how the tokens of a text follow a change of the text

A text cut short behind a token keeps the tokens before the cut (`scan_eq_append`), so any run of
tokens in the middle of a text is the token list of a part of it (`exists_part_of_scan`). A text
continued with a separator keeps all its tokens (`scan_append_separator`): a separator is a mark or
an ASCII blank, a character that goes on with no token whatever. Behind it a text is lexed as if it
stood alone, so a text splits at each of its separators (`tokenize_separator`).
-/

namespace MediaQuery

variable {kind : Kind} {word rest rest' : List Char}

/-! ## Cutting -/

theorem Lexes.cut (h : Lexes kind word rest) (hp : rest' <+: rest) : Lexes kind word rest' := by
  have hcs : word ++ rest' <+: word ++ rest := (List.prefix_append_right_inj word).mpr hp
  cases h with
  | mark hc hmark => exact .mark hc hmark
  | hack hc hmark hhack => exact .hack hc hmark (hack?_finds.some_of_prefix hhack hp)
  | word hc hmark hhack hword =>
    exact .word hc hmark (hack?_finds.none_of_prefix hhack hcs)
      (identifier?_finds.some_of_prefix hword hp)
  | number hc hmark hhack hword hnumber =>
    exact .number hc hmark (hack?_finds.none_of_prefix hhack hcs)
      (identifier?_finds.none_of_prefix hword hcs) (number?_finds.some_of_prefix hnumber hp)
  | delim hc hmark hhack hword hnumber =>
    exact .delim hc hmark (hack?_finds.none_of_prefix hhack hcs)
      (identifier?_finds.none_of_prefix hword hcs) (number?_finds.none_of_prefix hnumber hcs)

/-- Where a token list is cut in two, so is the text: right behind the last token of the front. -/
theorem scan_eq_append {offset : Nat} {cs : List Char} {ts us : List Token}
    (h : scan offset cs = ts ++ us) :
    ∃ front back, cs = front ++ back ∧ scan offset front = ts ∧
      scan (offset + byteLength front) back = us ∧
        (ts.getLast?.elim offset fun t => t.span.stop) = offset + byteLength front := by
  induction ts generalizing offset cs with
  | nil => exact ⟨[], cs, rfl, by rw [scan], h, rfl⟩
  | cons t ts ih =>
    obtain ⟨gap, kind, word, rest, rfl, hgap, hlex, rfl, hts⟩ := exists_lexes_of_scan_eq_cons h
    obtain ⟨front, back, rfl, hfront, hback, hstop⟩ := ih hts.symm
    refine ⟨gap ++ (word ++ front), back, by simp only [List.append_assoc], ?_, ?_, ?_⟩
    · rw [scan_gap hgap, scan_of_lexes (hlex.cut (List.prefix_append front back)), hfront]
    · simp only [byteLength_append, ← Nat.add_assoc, hback]
    · simp only [byteLength_append, ← Nat.add_assoc, ← hstop, List.getLast?_cons]
      cases ts.getLast? with
      | none => rfl
      | some last => rfl

/-- Tokens in the middle of a text are those of a part of it, from where the first of them starts
to where the last of them ends. -/
theorem exists_part_of_scan {offset : Nat} {cs : List Char} {xs ts ys : List Token}
    (h : scan offset cs = xs ++ ts ++ ys) (hne : ts ≠ []) :
    ∃ front part back, cs = front ++ part ++ back ∧
      scan (offset + byteLength front) part = ts ∧
        (∀ t ∈ ts.head?, t.span.start = offset + byteLength front) ∧
          ∀ t ∈ ts.getLast?, t.span.stop = offset + byteLength front + byteLength part := by
  rw [List.append_assoc] at h
  obtain ⟨front, tail, rfl, -, htail, -⟩ := scan_eq_append h
  obtain ⟨middle, back, rfl, hmiddle, -, hstop⟩ := scan_eq_append htail
  obtain ⟨t, ts, rfl⟩ := List.exists_cons_of_ne_nil hne
  obtain ⟨gap, kind, word, rest, rfl, hgap, hlex, rfl, hts⟩ := exists_lexes_of_scan_eq_cons hmiddle
  rw [scan_gap hgap] at hmiddle
  refine ⟨front ++ gap, word ++ rest, back, by simp only [List.append_assoc], ?_, ?_, ?_⟩
  · rw [byteLength_append, ← Nat.add_assoc, hmiddle]
  · intro t ht
    cases ht
    rw [byteLength_append, ← Nat.add_assoc]
    rfl
  · intro t ht
    rw [ht] at hstop
    simp only [byteLength_append, ← Nat.add_assoc] at hstop ⊢
    exact hstop

/-- Between two tokens that follow each other stand blanks only. -/
theorem exists_gap_of_scan {offset : Nat} {cs : List Char} {xs ys : List Token} {t u : Token}
    (h : scan offset cs = xs ++ t :: u :: ys) :
    ∃ front word gap word' back, cs = front ++ (word ++ (gap ++ (word' ++ back))) ∧
      (∀ c ∈ gap, isBlank c = true) ∧ Lexes t.kind word (gap ++ (word' ++ back)) ∧
        Lexes u.kind word' back ∧ t = Token.ofWord t.kind (offset + byteLength front) word ∧
          u = Token.ofWord u.kind
            (offset + byteLength front + byteLength word + byteLength gap) word' := by
  obtain ⟨front, tail, rfl, -, htail, -⟩ := scan_eq_append h
  obtain ⟨gap, kind, word, rest, rfl, hgap, hlex, rfl, hts⟩ := exists_lexes_of_scan_eq_cons htail
  obtain ⟨gap', kind', word', back, rfl, hgap', hlex', rfl, -⟩ :=
    exists_lexes_of_scan_eq_cons hts.symm
  refine ⟨front ++ gap, word, gap', word', back, by simp only [List.append_assoc], hgap', hlex,
    hlex', ?_, ?_⟩
  · rw [byteLength_append, ← Nat.add_assoc]
    rfl
  · rw [byteLength_append, ← Nat.add_assoc]
    rfl

/-! ## Separators -/

/-- The character goes on with no token: it is a mark or an ASCII blank. -/
def isSeparator (c : Char) : Bool :=
  (punctuation? c).isSome || (isBlank c && c.toNat < 0x80)

/-- A character of a number: a digit, a unit character, a point or a sign. -/
def isNumberChar (c : Char) : Bool :=
  c.isDigit || isUnitChar c || c == '.' || c == '+' || c == '-'

/-- The separators, one by one: the marks and the ASCII blanks. -/
def separators : List Char :=
  [',', '(', ')', ':', '/', '\t', '\n', '\x0b', '\x0c', '\r', ' ']

theorem mem_of_isSeparator {c : Char} (h : isSeparator c = true) : c ∈ separators := by
  simp only [isSeparator, Bool.or_eq_true, Bool.and_eq_true, decide_eq_true_eq] at h
  rcases h with h | ⟨hblank, hascii⟩
  · obtain ⟨kind, hkind⟩ := Option.isSome_iff_exists.mp h
    have hmark : c ∈ marks.map Prod.fst := List.mem_map_of_mem (mem_marks hkind)
    exact List.mem_append_left ['\t', '\n', '\x0b', '\x0c', '\r', ' '] hmark
  · simp only [isBlank, blankRanges, CodeRange.contains, List.any_cons, List.any_nil,
      Bool.or_eq_true, Bool.and_eq_true, decide_eq_true_eq, Bool.or_false] at hblank
    have hcode : c.toNat ∈ [0x09, 0x0A, 0x0B, 0x0C, 0x0D, 0x20] := by
      simp only [List.mem_cons, List.not_mem_nil, or_false]
      omega
    have hchar : c ∈ [0x09, 0x0A, 0x0B, 0x0C, 0x0D, 0x20].map Char.ofNat :=
      List.mem_map.mpr ⟨c.toNat, hcode, Char.ofNat_toNat c⟩
    exact List.mem_append_right [',', '(', ')', ':', '/'] hchar

theorem isSeparator_of_mem {c : Char} (h : c ∈ separators) : isSeparator c = true :=
  List.all_eq_true.mp (by decide) c h

/-- A separator takes one byte. -/
theorem utf8Size_of_isSeparator {c : Char} (h : isSeparator c = true) : c.utf8Size = 1 := by
  have hall : separators.all (·.utf8Size == 1) = true := by decide
  exact eq_of_beq (List.all_eq_true.mp hall c (mem_of_isSeparator h))

theorem IsHack.not_isSeparator {word : List Char} (h : IsHack word) :
    ∀ c ∈ word, isSeparator c = false := by
  intro c hc
  refine Bool.eq_false_iff.mpr (List.any_eq_false.mp ?_ c hc)
  cases h with
  | one hd => rcases isHackDigit_iff.mp hd with rfl | rfl <;> decide
  | two hd => rcases isHackDigit_iff.mp hd with rfl | rfl <;> decide

theorem not_isSeparator_of_isNameChar {c : Char} (h : isNameChar c = true) :
    isSeparator c = false := by
  by_contra hc
  rw [Bool.not_eq_false] at hc
  have hnone : separators.any isNameChar = false := by decide
  exact List.any_eq_false.mp hnone c (mem_of_isSeparator hc) h

theorem not_isSeparator_of_isNumberChar {c : Char} (h : isNumberChar c = true) :
    isSeparator c = false := by
  by_contra hc
  rw [Bool.not_eq_false] at hc
  have hnone : separators.any isNumberChar = false := by decide
  exact List.any_eq_false.mp hnone c (mem_of_isSeparator hc) h

theorem IsDigits.isNumberChar {ds : List Char} (h : IsDigits ds) :
    ∀ c ∈ ds, isNumberChar c = true := by
  intro c hc
  simp only [MediaQuery.isNumberChar, h.digits c hc, Bool.true_or]

theorem IsSign.isNumberChar {sign : List Char} (h : IsSign sign) :
    ∀ c ∈ sign, isNumberChar c = true := by
  apply List.all_eq_true.mp
  cases h <;> decide

/-- Every character of a number is one of digits, units, points and signs. -/
theorem IsNumber.isNumberChar {word : List Char} (h : IsNumber word) :
    ∀ c ∈ word, isNumberChar c = true := by
  obtain @⟨sign, mantissa, exponent, unit, hsign, hmantissa, hexponent, hunit⟩ := h
  have hmantissa : ∀ c ∈ mantissa, MediaQuery.isNumberChar c = true := by
    cases hmantissa with
    | whole hds => exact hds.isNumberChar
    | both hds hfs =>
      exact List.forall_mem_append.mpr
        ⟨hds.isNumberChar, List.forall_mem_cons.mpr ⟨by decide, hfs.isNumberChar⟩⟩
    | fraction hfs => exact List.forall_mem_cons.mpr ⟨by decide, hfs.isNumberChar⟩
  have hexponent : ∀ c ∈ exponent, MediaQuery.isNumberChar c = true := by
    cases hexponent with
    | none => exact fun c hc => absurd hc List.not_mem_nil
    | power he hs hds =>
      refine List.forall_mem_cons.mpr ⟨?_, List.forall_mem_append.mpr
        ⟨hs.isNumberChar, hds.isNumberChar⟩⟩
      rcases he with rfl | rfl <;> decide
  have hunit : ∀ c ∈ unit, MediaQuery.isNumberChar c = true := fun c hc => by
    simp only [MediaQuery.isNumberChar, hunit c hc, Bool.or_true, Bool.true_or]
  simp only [List.forall_mem_append]
  exact ⟨⟨⟨hsign.isNumberChar, hmantissa⟩, hexponent⟩, hunit⟩

/-- A separator behind a token, with anything after it, leaves the token as it is. -/
theorem Lexes.separate (h : Lexes kind word rest) {s : Char} (hs : isSeparator s = true)
    (more : List Char) : Lexes kind word (rest ++ s :: more) := by
  have hhacks : ∀ w, IsHack w → s ∉ w := fun w hw hmem => by
    rw [hw.not_isSeparator s hmem] at hs
    cases hs
  have hwords : ∀ w, IsIdentifier w → s ∉ w := fun w hw hmem => by
    rw [not_isSeparator_of_isNameChar (hw.isNameChar s hmem)] at hs
    cases hs
  have hnumbers : ∀ w, IsNumber w → s ∉ w := fun w hw hmem => by
    rw [not_isSeparator_of_isNumberChar (hw.isNumberChar s hmem)] at hs
    cases hs
  cases h with
  | mark hc hmark => exact .mark hc hmark
  | hack hc hmark hhack => exact .hack hc hmark (hack?_finds.some_of_stop hhacks more hhack)
  | word hc hmark hhack hword =>
    refine .word hc hmark ?_ (identifier?_finds.some_of_stop hwords more hword)
    rw [← List.append_assoc]
    exact hack?_finds.none_of_stop hhacks more hhack
  | number hc hmark hhack hword hnumber =>
    refine .number hc hmark ?_ ?_ (number?_finds.some_of_stop hnumbers more hnumber)
    · rw [← List.append_assoc]
      exact hack?_finds.none_of_stop hhacks more hhack
    · rw [← List.append_assoc]
      exact identifier?_finds.none_of_stop hwords more hword
  | delim hc hmark hhack hword hnumber =>
    exact .delim hc hmark (hack?_finds.none_of_stop hhacks more hhack)
      (identifier?_finds.none_of_stop hwords more hword)
      (number?_finds.none_of_stop hnumbers more hnumber)

/-- **A separator splits the tokens of a text** in those before it and those from it on. -/
theorem scan_append_separator {s : Char} (hs : isSeparator s = true) (offset : Nat)
    (cs more : List Char) :
    scan offset (cs ++ s :: more) =
      scan offset cs ++ scan (offset + byteLength cs) (s :: more) := by
  fun_induction scan offset cs with
  | case1 => rfl
  | case2 offset c cs hc ih =>
    rw [List.cons_append, scan, if_pos hc, ih, byteLength_cons, Nat.add_assoc]
  | case3 offset c cs hc stop ih =>
    have happ := lexeme_append c cs
    have hlex := (lexes_lexeme (Bool.eq_false_iff.mpr hc) cs).separate hs more
    calc scan offset (c :: cs ++ s :: more)
        = scan offset ((lexeme c cs).text ++ ((lexeme c cs).rest ++ s :: more)) := by
          rw [← happ, List.append_assoc]
      _ = Token.ofWord (lexeme c cs).kind offset (lexeme c cs).text ::
            scan stop ((lexeme c cs).rest ++ s :: more) := scan_of_lexes hlex offset
      _ = _ := by
          rw [ih, ← happ, byteLength_append, ← Nat.add_assoc]
          rfl

theorem not_isBlank_of_punctuation? {c : Char} {kind : Kind} (h : punctuation? c = some kind) :
    isBlank c = false := by
  have hall : marks.all (fun m => isBlank m.1 == false) = true := by decide
  exact eq_of_beq (List.all_eq_true.mp hall _ (mem_marks h))

/-- The token of a separator at a byte offset: a mark has one, and a blank has none. -/
def separatorTokens (offset : Nat) (c : Char) : List Token :=
  (punctuation? c).toList.map fun kind => ⟨kind, ⟨offset, offset + 1⟩, String.singleton c⟩

theorem scan_separator {s : Char} (hs : isSeparator s = true) (offset : Nat) (more : List Char) :
    scan offset (s :: more) = separatorTokens offset s ++ scan (offset + 1) more := by
  have hsize := utf8Size_of_isSeparator hs
  cases hmark : punctuation? s with
  | some kind =>
    have hlex : Lexes kind [s] more := .mark (not_isBlank_of_punctuation? hmark) hmark
    have hcons := scan_of_lexes hlex offset
    rw [Token.ofWord, byteLength_cons, byteLength_nil, Nat.add_zero, hsize] at hcons
    rw [separatorTokens, hmark, String.singleton_eq_ofList]
    exact hcons
  | none =>
    have hblank : isBlank s = true := by
      simp only [isSeparator, hmark, Option.isSome_none, Bool.false_or, Bool.and_eq_true] at hs
      exact hs.1
    rw [scan, if_pos hblank, hsize, separatorTokens, hmark]
    rfl

/-- The tokens of two texts with a separator between them, the second of which moves behind it. -/
theorem scan_append_cons {s : Char} (hs : isSeparator s = true) (as bs : List Char) :
    scan 0 (as ++ s :: bs) =
      scan 0 as ++ separatorTokens (byteLength as) s ++
        (scan 0 bs).map (Token.shift (byteLength as + 1)) := by
  rw [scan_append_separator hs, Nat.zero_add, scan_separator hs, ← List.append_assoc, ← scan_add,
    Nat.add_zero]

/-- The tokens of two texts with a separator between them, with the mark of their end. -/
theorem tokenize_append_cons {c : Char} (hc : isSeparator c = true) (a b : String) :
    tokenize (a ++ String.singleton c ++ b) =
      scan 0 a.toList ++ separatorTokens (byteLength a.toList) c ++
        (tokenize b).map (Token.shift (byteLength a.toList + 1)) := by
  have htext : (a ++ String.singleton c ++ b).toList = a.toList ++ c :: b.toList := by
    rw [String.toList_append, String.toList_append, String.toList_singleton, List.append_assoc,
      List.singleton_append]
  have hlength : byteLength (a.toList ++ c :: b.toList) =
      byteLength a.toList + 1 + byteLength b.toList := by
    rw [byteLength_append, byteLength_cons, utf8Size_of_isSeparator hc, Nat.add_assoc]
  rw [tokenize, htext, scan_append_cons hc, hlength, tokenize, List.map_append,
    ← List.append_assoc]
  rfl

/-- The text ends in a separator. -/
def EndsApart (s : String) : Prop :=
  ∃ c ∈ s.toList.getLast?, isSeparator c = true

theorem EndsApart.append {s : String} (h : EndsApart s) (front : String) :
    EndsApart (front ++ s) := by
  obtain ⟨c, hc, hseparator⟩ := h
  refine ⟨c, ?_, hseparator⟩
  rw [String.toList_append, List.getLast?_append, hc]
  rfl

/-- Behind a text that ends in a separator, the tokens of another are its own, so many bytes
later. -/
theorem EndsApart.tokenize_append {ahead : String} (h : EndsApart ahead) (s : String) :
    tokenize (ahead ++ s) =
      scan 0 ahead.toList ++ (tokenize s).map (Token.shift (byteLength ahead.toList)) := by
  obtain ⟨c, hc, hseparator⟩ := h
  obtain ⟨cs, hcs⟩ := List.getLast?_eq_some_iff.mp hc
  obtain rfl : ahead = String.ofList cs ++ String.singleton c := by
    rw [← String.toList_inj, hcs, String.toList_append, String.toList_ofList,
      String.toList_singleton]
  have hfront : scan 0 (cs ++ [c]) = scan 0 cs ++ separatorTokens (byteLength cs) c := by
    rw [scan_append_cons hseparator, scan, List.map_nil, List.append_nil]
  have hlength : byteLength (cs ++ [c]) = byteLength cs + 1 := by
    rw [byteLength_append, byteLength_cons, utf8Size_of_isSeparator hseparator]
    rfl
  rw [tokenize_append_cons hseparator, hcs, hfront, hlength, String.toList_ofList]

/-- **A text splits at its separators.** The tokens of two texts with a separator between them are
those of the first, the separator's own if it is a mark, and those of the second, which stand as
much later as the first text and the separator are long. -/
theorem tokenize_separator (a b : String) {c : Char} (h : c ∈ separators) :
    tokenize (a ++ String.singleton c ++ b) =
      (tokenize a).dropLast ++
        ((punctuation? c).toList.map fun kind =>
          ⟨kind, ⟨byteLength a.toList, byteLength a.toList + 1⟩, String.singleton c⟩) ++
        (tokenize b).map (Token.shift (byteLength a.toList + 1)) := by
  have hfront : (tokenize a).dropLast = scan 0 a.toList := List.dropLast_concat
  rw [hfront]
  exact tokenize_append_cons (isSeparator_of_mem h) a b

/-- Half an exponent before a comma stays a number and a character, as at the end of a text. -/
theorem tokenize_separator_exponent :
    tokenize ("2e+" ++ String.singleton ',' ++ "1") =
      (tokenize "2e+").dropLast ++ [⟨.comma, ⟨3, 4⟩, ","⟩] ++
        (tokenize "1").map (Token.shift 4) :=
  tokenize_separator "2e+" "1" (c := ',') (by decide)

end MediaQuery
