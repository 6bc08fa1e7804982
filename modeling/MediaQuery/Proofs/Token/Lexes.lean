import MediaQuery.Proofs.Token.Numeral

/-!
# Lexing step by step — the word at the beginning of a text

`Lexes kind word rest` says that the lexer finds the word, as a token of the kind, where the rest
follows it. The tokens of a text are then read off one by one (`scan_of_lexes`,
`exists_lexes_of_scan_eq_cons`), and the kind of a token says what its word is: a hack is one
(`Lexes.isHack`), an identifier is a name behind which no character goes on with it
(`Lexes.isName`, `Lexes.stop`).
-/

namespace MediaQuery

/-- The token of a word that stands at a byte offset. -/
def Token.ofWord (kind : Kind) (offset : Nat) (word : List Char) : Token :=
  ⟨kind, ⟨offset, offset + byteLength word⟩, String.ofList word⟩

/-- The lexer finds the word, as a token of the kind, where the rest follows it. -/
inductive Lexes : Kind → List Char → List Char → Prop where
  | mark {kind : Kind} {c : Char} {rest : List Char} :
      isBlank c = false → punctuation? c = some kind → Lexes kind [c] rest
  | hack {c : Char} {cs rest : List Char} :
      isBlank c = false → punctuation? c = none →
        hack? (c :: cs ++ rest) = some (c :: cs, rest) → Lexes .hack (c :: cs) rest
  | word {c : Char} {cs rest : List Char} :
      isBlank c = false → punctuation? c = none → hack? (c :: cs ++ rest) = none →
        identifier? (c :: cs ++ rest) = some (c :: cs, rest) →
          Lexes (wordKind (c :: cs)) (c :: cs) rest
  | number {c : Char} {cs rest : List Char} :
      isBlank c = false → punctuation? c = none → hack? (c :: cs ++ rest) = none →
        identifier? (c :: cs ++ rest) = none →
          number? (c :: cs ++ rest) = some (c :: cs, rest) → Lexes .number (c :: cs) rest
  | delim {c : Char} {rest : List Char} :
      isBlank c = false → punctuation? c = none → hack? (c :: rest) = none →
        identifier? (c :: rest) = none → number? (c :: rest) = none → Lexes .delim [c] rest

/-! ## The lexer's own choice -/

theorem exists_eq_cons_of_append {text rest cs : List Char} {c : Char} (h : text ++ rest = c :: cs)
    (hne : text ≠ []) : ∃ tail, text = c :: tail ∧ cs = tail ++ rest := by
  obtain ⟨d, tail, rfl⟩ := List.exists_cons_of_ne_nil hne
  obtain ⟨rfl, rfl⟩ := List.cons.inj h
  exact ⟨tail, rfl, rfl⟩

theorem lexes_lexeme {c : Char} (hc : isBlank c = false) (cs : List Char) :
    Lexes (lexeme c cs).kind (lexeme c cs).text (lexeme c cs).rest := by
  unfold lexeme
  split
  · next hmark => exact .mark hc hmark
  · next hmark =>
    split
    · next hhack =>
      obtain ⟨tail, rfl, rfl⟩ :=
        exists_eq_cons_of_append (hack?_append hhack).1 (hack?_append hhack).2
      exact .hack hc hmark hhack
    · next hhack =>
      split
      · next hword =>
        obtain ⟨tail, rfl, rfl⟩ :=
          exists_eq_cons_of_append (identifier?_append hword).1 (identifier?_append hword).2
        exact .word hc hmark hhack hword
      · next hword =>
        split
        · next hnumber =>
          obtain ⟨tail, rfl, rfl⟩ :=
            exists_eq_cons_of_append (number?_append hnumber).1 (number?_append hnumber).2
          exact .number hc hmark hhack hword hnumber
        · next hnumber => exact .delim hc hmark hhack hword hnumber

namespace Lexes

variable {kind : Kind} {word rest : List Char}

theorem lexeme_eq (h : Lexes kind word rest) :
    ∃ c cs, word = c :: cs ∧ isBlank c = false ∧ lexeme c (cs ++ rest) = ⟨kind, word, rest⟩ := by
  cases h with
  | @mark _ c _ hc hmark => exact ⟨c, [], rfl, hc, by simp only [lexeme, hmark, List.nil_append]⟩
  | @hack c cs _ hc hmark hhack =>
    rw [List.cons_append] at hhack
    exact ⟨c, cs, rfl, hc, by simp only [lexeme, hmark, hhack]⟩
  | @word c cs _ hc hmark hhack hword =>
    rw [List.cons_append] at hhack hword
    exact ⟨c, cs, rfl, hc, by simp only [lexeme, hmark, hhack, hword]⟩
  | @number c cs _ hc hmark hhack hword hnumber =>
    rw [List.cons_append] at hhack hword hnumber
    exact ⟨c, cs, rfl, hc, by simp only [lexeme, hmark, hhack, hword, hnumber]⟩
  | @delim c _ hc hmark hhack hword hnumber =>
    exact ⟨c, [], rfl, hc, by simp only [lexeme, hmark, hhack, hword, hnumber, List.nil_append]⟩

/-- A token does not begin with a blank. -/
theorem noBlank (h : Lexes kind word rest) : ∀ c ∈ word.head?, isBlank c = false := by
  obtain ⟨c, cs, rfl, hc, -⟩ := h.lexeme_eq
  intro d hd
  cases hd
  exact hc

theorem ne_nil (h : Lexes kind word rest) : word ≠ [] := by
  obtain ⟨c, cs, rfl, -⟩ := h.lexeme_eq
  exact List.cons_ne_nil c cs

end Lexes

/-! ## Tokens read off one by one -/

/-- Blanks before a text move its tokens and change nothing else. -/
theorem scan_gap {gap : List Char} (h : ∀ c ∈ gap, isBlank c = true) (offset : Nat)
    (cs : List Char) : scan offset (gap ++ cs) = scan (offset + byteLength gap) cs := by
  induction gap generalizing offset with
  | nil => rfl
  | cons c gap ih =>
    rw [List.cons_append, scan, if_pos (h c List.mem_cons_self),
      ih (fun d hd => h d (List.mem_cons_of_mem c hd)), byteLength_cons, Nat.add_assoc]

theorem scan_of_lexes {kind : Kind} {word rest : List Char} (h : Lexes kind word rest)
    (offset : Nat) :
    scan offset (word ++ rest) =
      Token.ofWord kind offset word :: scan (offset + byteLength word) rest := by
  obtain ⟨c, cs, rfl, hc, heq⟩ := h.lexeme_eq
  rw [List.cons_append, scan, if_neg (Bool.eq_false_iff.mp hc)]
  simp only [heq, Token.ofWord]

/-- The first token of a text stands behind blanks, and the others are those of the rest. -/
theorem exists_lexes_of_scan_eq_cons {offset : Nat} {cs : List Char} {t : Token} {ts : List Token}
    (h : scan offset cs = t :: ts) :
    ∃ gap kind word rest, cs = gap ++ (word ++ rest) ∧ (∀ c ∈ gap, isBlank c = true) ∧
      Lexes kind word rest ∧ t = Token.ofWord kind (offset + byteLength gap) word ∧
        ts = scan (offset + byteLength gap + byteLength word) rest := by
  fun_induction scan offset cs with
  | case1 => cases h
  | case2 offset c cs hc ih =>
    obtain ⟨gap, kind, word, rest, rfl, hgap, hlex, ht, hts⟩ := ih h
    rw [Nat.add_assoc offset, ← byteLength_cons] at ht hts
    refine ⟨c :: gap, kind, word, rest, rfl, ?_, hlex, ht, hts⟩
    exact List.forall_mem_cons.mpr ⟨hc, hgap⟩
  | case3 offset c cs hc stop ih =>
    obtain ⟨rfl, rfl⟩ := List.cons.inj h
    have hlex := lexes_lexeme (Bool.eq_false_iff.mpr hc) cs
    exact ⟨[], _, _, _, (lexeme_append c cs).symm, fun _ hd => absurd hd List.not_mem_nil, hlex,
      rfl, rfl⟩

/-- A token of a text is found by the lexer where it stands. -/
theorem exists_lexes_of_mem_scan {offset : Nat} {cs : List Char} {t : Token}
    (h : t ∈ scan offset cs) : ∃ word rest, Lexes t.kind word rest ∧ word ++ rest <:+ cs ∧
      t.text = String.ofList word := by
  fun_induction scan offset cs with
  | case1 => exact absurd h List.not_mem_nil
  | case2 offset c cs hc ih =>
    obtain ⟨word, rest, hlex, hsuffix, htext⟩ := ih h
    exact ⟨word, rest, hlex, hsuffix.trans (List.suffix_cons c cs), htext⟩
  | case3 offset c cs hc stop ih =>
    have happ := lexeme_append c cs
    rcases List.mem_cons.mp h with rfl | h
    · exact ⟨_, _, lexes_lexeme (Bool.eq_false_iff.mpr hc) cs, happ ▸ List.suffix_rfl, rfl⟩
    · obtain ⟨word, rest, hlex, hsuffix, htext⟩ := ih h
      exact ⟨word, rest, hlex, hsuffix.trans ⟨_, happ⟩, htext⟩

/-! ## What a token's kind says of its word -/

/-- The words that a token of the kind may be. -/
def Kind.Admits : Kind → List Char → Prop
  | .not, word => lower word = ['n', 'o', 't']
  | .only, word => lower word = ['o', 'n', 'l', 'y']
  | .and, word => lower word = ['a', 'n', 'd']
  | .identifier, word => IsName word
  | .number, word => IsNumber word
  | .hack, word => IsHack word
  | .leftParen, word => word = ['(']
  | .rightParen, word => word = [')']
  | .colon, word => word = [':']
  | .comma, word => word = [',']
  | .slash, word => word = ['/']
  | .delim, word => ∃ c, word = [c]
  | .eof, _ => False

theorem wordKind_admits {word : List Char} (h : IsIdentifier word)
    (hblank : ∀ c ∈ word.head?, isBlank c = false) : (wordKind word).Admits word := by
  unfold wordKind
  split_ifs with hnot honly hand
  · exact eq_of_beq hnot
  · exact eq_of_beq honly
  · exact eq_of_beq hand
  · refine ⟨h, hblank, ?_⟩
    intro hmem
    simp only [keywords, List.mem_cons, List.not_mem_nil, or_false] at hmem
    rcases hmem with heq | heq | heq
    · exact hnot (beq_iff_eq.mpr heq)
    · exact honly (beq_iff_eq.mpr heq)
    · exact hand (beq_iff_eq.mpr heq)

theorem wordKind_of_isName {word : List Char} (h : IsName word) : wordKind word = .identifier := by
  have hkeyword := h.noKeyword
  simp only [keywords, List.mem_cons, List.not_mem_nil, or_false, not_or] at hkeyword
  simp only [wordKind, isWord, beq_iff_eq, hkeyword.1, hkeyword.2.1, hkeyword.2.2, if_false]

/-- The marks with their kinds. -/
def marks : List (Char × Kind) :=
  [(',', .comma), ('(', .leftParen), (')', .rightParen), (':', .colon), ('/', .slash)]

theorem mem_marks {c : Char} {kind : Kind} (h : punctuation? c = some kind) :
    (c, kind) ∈ marks := by
  unfold punctuation? at h
  split at h <;> cases h <;> decide

theorem punctuation?_admits {c : Char} {kind : Kind} (h : punctuation? c = some kind) :
    kind.Admits [c] := by
  unfold punctuation? at h
  split at h <;> cases h <;> rfl

namespace Lexes

variable {kind : Kind} {word rest : List Char}

theorem admits (h : Lexes kind word rest) : kind.Admits word := by
  have hblank := h.noBlank
  cases h with
  | mark _ hmark => exact punctuation?_admits hmark
  | hack _ _ hhack => exact .of_hack? hhack
  | word _ _ _ hword => exact wordKind_admits (.of_identifier? hword) hblank
  | number _ _ _ _ hnumber => exact .of_number? hnumber
  | delim => exact ⟨_, rfl⟩

theorem isHack (h : Lexes .hack word rest) : IsHack word := h.admits

theorem isName (h : Lexes .identifier word rest) : IsName word := h.admits

/-- No character goes on with an identifier where it ends. -/
theorem stop (h : Lexes .identifier word rest) : ∀ c ∈ rest.head?, isNameChar c = false := by
  generalize hk : Kind.identifier = kind at h
  cases h with
  | mark _ hmark =>
    subst hk
    have hkind : Kind.identifier ∈ marks.map Prod.snd := List.mem_map_of_mem (mem_marks hmark)
    exact absurd hkind (by decide)
  | word _ _ _ hword =>
    have hall := identifier?_append_of_isIdentifier (.of_identifier? hword) rest
    have hrest : rest = rest.dropWhile isNameChar :=
      congrArg Prod.snd (Option.some.inj (hword.symm.trans hall))
    intro c hc
    have hhead := List.head?_dropWhile_not isNameChar rest
    rw [← hrest, hc] at hhead
    exact hhead
  | _ => cases hk

end Lexes

/-- No token of a text is of the kind that marks its end. -/
theorem kind_ne_eof_of_mem_scan {offset : Nat} {cs : List Char} {t : Token}
    (h : t ∈ scan offset cs) : t.kind ≠ .eof := by
  intro heof
  obtain ⟨word, rest, hlex, -⟩ := exists_lexes_of_mem_scan h
  rw [heof] at hlex
  exact hlex.admits

/-! ## Words that the lexer finds -/

theorem hack?_cons_of_ne {c : Char} (h : c ≠ '\\') (cs : List Char) : hack? (c :: cs) = none := by
  unfold hack?
  split
  · next heq => exact absurd (List.cons.inj heq).1 h
  · next heq => exact absurd (List.cons.inj heq).1 h
  · rfl

theorem punctuation?_of_isNameChar {c : Char} (h : isNameChar c = true) :
    punctuation? c = none := by
  unfold punctuation?
  split
  · exact absurd h (by decide)
  · exact absurd h (by decide)
  · exact absurd h (by decide)
  · exact absurd h (by decide)
  · exact absurd h (by decide)
  · rfl

namespace Lexes

/-- A hack is found whatever follows it. -/
theorem of_isHack {word : List Char} (h : IsHack word) (rest : List Char) :
    Lexes .hack word rest := by
  have hfound := hack?_append_of_isHack h rest
  cases h with
  | one => exact .hack (by decide) (by decide) hfound
  | two => exact .hack (by decide) (by decide) hfound

/-- A word is found where no character goes on with it. -/
theorem of_isIdentifier {word rest : List Char} (h : IsIdentifier word)
    (hblank : ∀ c ∈ word.head?, isBlank c = false)
    (hstop : ∀ c ∈ rest.head?, isNameChar c = false) : Lexes (wordKind word) word rest := by
  obtain ⟨c, cs, rfl⟩ : ∃ c cs, word = c :: cs := by
    cases h with
    | start => exact ⟨_, _, rfl⟩
    | hyphen => exact ⟨_, _, rfl⟩
  have hc := h.isNameChar c List.mem_cons_self
  have hne : c ≠ '\\' := by rintro rfl; exact absurd hc (by decide)
  exact .word (hblank c rfl) (punctuation?_of_isNameChar hc) (hack?_cons_of_ne hne _)
    (identifier?_append_of_stop h hstop)

/-- A name is found where no character goes on with it. -/
theorem of_isName {word rest : List Char} (h : IsName word)
    (hstop : ∀ c ∈ rest.head?, isNameChar c = false) : Lexes .identifier word rest := by
  rw [← wordKind_of_isName h]
  exact of_isIdentifier h.identifier h.noBlank hstop

end Lexes

end MediaQuery
