import MediaQuery.Proofs.Token.Lexes

/-!
# Small letters — the tokens of a text without its capitals

The classes of characters that the lexer goes by hold a capital exactly if they hold its small
letter (`IgnoresCase`), and so the three languages of words do not tell the two apart
(`IsCaseless`). The longest word at the beginning of a text is then found in the same place when the
capitals are made small (`IsLongestPrefix.lower`), for the letter e of an exponent or a unit as for
any other. So making a text small makes its tokens small, and changes neither their kinds nor their
places (`tokenize_lower`).
-/

namespace MediaQuery

/-! ## Characters -/

/-- The ASCII capitals. -/
def capitals : List Char :=
  (List.range' (Char.toNat 'A') 26).map Char.ofNat

/-- A character that is not its own small letter is a capital. -/
theorem mem_capitals {c : Char} (h : c.toLower ≠ c) : c ∈ capitals := by
  have hrange : 'A'.val ≤ c.val ∧ c.val ≤ 'Z'.val := by
    by_contra hnot
    exact h (dif_neg hnot)
  have hlow : 65 ≤ c.toNat := hrange.1
  have hhigh : c.toNat ≤ 90 := hrange.2
  refine List.mem_map.mpr ⟨c.toNat, ?_, Char.ofNat_toNat c⟩
  rw [List.mem_range'_1]
  exact ⟨hlow, Nat.lt_succ_of_le hhigh⟩

/-- The function does not tell a capital from its small letter. -/
def IgnoresCase {α : Type} (p : Char → α) : Prop :=
  ∀ c, p c.toLower = p c

namespace IgnoresCase

variable {α : Type} {p : Char → α} {c d : Char}

/-- Only the capitals have to be looked at. -/
theorem of_capitals [DecidableEq α] (h : capitals.all (fun c => p c.toLower == p c) = true) :
    IgnoresCase p := by
  intro c
  by_cases hc : c.toLower = c
  · rw [hc]
  · exact eq_of_beq (List.all_eq_true.mp h c (mem_capitals hc))

theorem eq (h : IgnoresCase p) (hcd : c.toLower = d.toLower) : p c = p d := by
  rw [← h c, hcd, h d]

theorem comp (h : IgnoresCase p) : p ∘ Char.toLower = p :=
  funext h

end IgnoresCase

theorem ignoresCase_isBlank : IgnoresCase isBlank := .of_capitals (by decide)

theorem ignoresCase_punctuation? : IgnoresCase punctuation? := .of_capitals (by decide)

theorem ignoresCase_isHackDigit : IgnoresCase isHackDigit := .of_capitals (by decide)

theorem ignoresCase_isNameStart : IgnoresCase isNameStart := .of_capitals (by decide)

theorem ignoresCase_isNameChar : IgnoresCase isNameChar := .of_capitals (by decide)

theorem ignoresCase_isDigit : IgnoresCase Char.isDigit := .of_capitals (by decide)

theorem ignoresCase_isUnitChar : IgnoresCase isUnitChar := .of_capitals (by decide)

theorem ignoresCase_utf8Size : IgnoresCase Char.utf8Size := .of_capitals (by decide)

theorem ignoresCase_toLower : IgnoresCase Char.toLower := .of_capitals (by decide)

/-- A character that is no letter is told from all others. -/
theorem eq_of_toLower_eq {c d : Char} (hd : IgnoresCase (· == d)) (h : d.toLower = c.toLower) :
    c = d := by
  have hself : (d == d) = (c == d) := hd.eq h
  rw [beq_self_eq_true] at hself
  exact eq_of_beq hself.symm

/-! ## Texts -/

section Texts

variable {c : Char} {as bs cs ds : List Char}

theorem lower_cons (c : Char) (cs : List Char) : lower (c :: cs) = c.toLower :: lower cs := rfl

theorem lower_lower (cs : List Char) : lower (lower cs) = lower cs := by
  rw [lower, lower, List.map_map]
  exact List.map_congr_left fun c _ => ignoresCase_toLower c

theorem byteLength_lower (cs : List Char) : byteLength (lower cs) = byteLength cs := by
  induction cs with
  | nil => rfl
  | cons c cs ih => rw [lower_cons, byteLength_cons, byteLength_cons, ih, ignoresCase_utf8Size c]

theorem eq_nil_of_lower (h : lower [] = lower ds) : ds = [] :=
  List.map_eq_nil_iff.mp h.symm

theorem exists_cons_of_lower (h : lower (c :: cs) = lower ds) :
    ∃ d es, ds = d :: es ∧ c.toLower = d.toLower ∧ lower cs = lower es := by
  obtain ⟨d, es, rfl, hd, hes⟩ := List.map_eq_cons_iff.mp h.symm
  exact ⟨d, es, rfl, hd.symm, hes.symm⟩

/-- A character that is no letter stands in the same place. -/
theorem exists_mark_of_lower (hc : IgnoresCase (· == c)) (h : lower (c :: cs) = lower ds) :
    ∃ es, ds = c :: es ∧ lower cs = lower es := by
  obtain ⟨d, es, rfl, hd, hes⟩ := exists_cons_of_lower h
  obtain rfl := eq_of_toLower_eq hc hd
  exact ⟨es, rfl, hes⟩

theorem exists_append_of_lower (h : lower (as ++ bs) = lower ds) :
    ∃ as' bs', ds = as' ++ bs' ∧ lower as = lower as' ∧ lower bs = lower bs' := by
  rw [lower_append] at h
  obtain ⟨as', bs', rfl, has, hbs⟩ := List.map_eq_append_iff.mp h.symm
  exact ⟨as', bs', rfl, has.symm, hbs.symm⟩

theorem forall_mem_of_lower {p : Char → Bool} (hp : IgnoresCase p) (h : lower cs = lower ds)
    (hcs : ∀ c ∈ cs, p c = true) : ∀ d ∈ ds, p d = true := by
  intro d hd
  have hmem : d.toLower ∈ lower cs := by
    rw [h]
    exact List.mem_map_of_mem hd
  obtain ⟨c, hc, hcd⟩ := List.mem_map.mp hmem
  rw [← hp.eq hcd]
  exact hcs c hc

end Texts

/-! ## Languages -/

/-- The language does not tell texts apart that differ in case only. -/
def IsCaseless (language : List Char → Prop) : Prop :=
  ∀ {w w'}, lower w = lower w' → language w → language w'

theorem ignoresCase_backslash : IgnoresCase (· == '\\') := .of_capitals (by decide)

theorem ignoresCase_hyphen : IgnoresCase (· == '-') := .of_capitals (by decide)

theorem ignoresCase_plus : IgnoresCase (· == '+') := .of_capitals (by decide)

theorem ignoresCase_point : IgnoresCase (· == '.') := .of_capitals (by decide)

theorem isCaseless_isHack : IsCaseless IsHack := by
  intro w w' h hw
  cases hw with
  | one hd =>
    obtain ⟨cs, rfl, hcs⟩ := exists_mark_of_lower ignoresCase_backslash h
    obtain ⟨d', cs, rfl, hd', hnil⟩ := exists_cons_of_lower hcs
    obtain rfl := eq_nil_of_lower hnil
    rw [ignoresCase_isHackDigit.eq hd'] at hd
    exact .one hd
  | two hd =>
    obtain ⟨tail, rfl, htail⟩ := exists_mark_of_lower ignoresCase_backslash h
    obtain ⟨cs, rfl, hcs⟩ := exists_mark_of_lower ignoresCase_backslash htail
    obtain ⟨d', cs, rfl, hd', hnil⟩ := exists_cons_of_lower hcs
    obtain rfl := eq_nil_of_lower hnil
    rw [ignoresCase_isHackDigit.eq hd'] at hd
    exact .two hd

theorem isCaseless_isIdentifier : IsCaseless IsIdentifier := by
  intro w w' h hw
  induction hw generalizing w' with
  | start hc hcs =>
    obtain ⟨d, ds, rfl, hd, hds⟩ := exists_cons_of_lower h
    rw [ignoresCase_isNameStart.eq hd] at hc
    exact .start hc (forall_mem_of_lower ignoresCase_isNameChar hds hcs)
  | hyphen _ ih =>
    obtain ⟨ds, rfl, hds⟩ := exists_mark_of_lower ignoresCase_hyphen h
    exact .hyphen (ih hds)

theorem isCaseless_isSign : IsCaseless IsSign := by
  intro w w' h hw
  cases hw with
  | none =>
    obtain rfl := eq_nil_of_lower h
    exact .none
  | plus =>
    obtain ⟨cs, rfl, hcs⟩ := exists_mark_of_lower ignoresCase_plus h
    obtain rfl := eq_nil_of_lower hcs
    exact .plus
  | minus =>
    obtain ⟨cs, rfl, hcs⟩ := exists_mark_of_lower ignoresCase_hyphen h
    obtain rfl := eq_nil_of_lower hcs
    exact .minus

theorem isCaseless_isDigits : IsCaseless IsDigits := by
  intro w w' h hw
  refine ⟨?_, forall_mem_of_lower ignoresCase_isDigit h hw.digits⟩
  rintro rfl
  exact hw.nonempty (eq_nil_of_lower h.symm)

theorem isCaseless_isMantissa : IsCaseless IsMantissa := by
  intro w w' h hw
  cases hw with
  | whole hds => exact .whole (isCaseless_isDigits h hds)
  | both hds hfs =>
    obtain ⟨ds', tail, rfl, hwhole, htail⟩ := exists_append_of_lower h
    obtain ⟨fs', rfl, hfraction⟩ := exists_mark_of_lower ignoresCase_point htail
    exact .both (isCaseless_isDigits hwhole hds) (isCaseless_isDigits hfraction hfs)
  | fraction hfs =>
    obtain ⟨fs', rfl, hfraction⟩ := exists_mark_of_lower ignoresCase_point h
    exact .fraction (isCaseless_isDigits hfraction hfs)

theorem isCaseless_isExponent : IsCaseless IsExponent := by
  intro w w' h hw
  cases hw with
  | none =>
    obtain rfl := eq_nil_of_lower h
    exact .none
  | @power e sign ds he hsign hds =>
    obtain ⟨e', tail, rfl, he', htail⟩ := exists_cons_of_lower h
    obtain ⟨sign', ds', rfl, h, h'⟩ := exists_append_of_lower htail
    -- either letter may begin the exponent, so the class of both is what ignores case
    have hletter : IgnoresCase fun c : Char => c == 'e' || c == 'E' := .of_capitals (by decide)
    have hsame := hletter.eq he'
    have hpower : e' = 'e' ∨ e' = 'E' := by
      have hfirst : (e == 'e' || e == 'E') = true := by
        simpa only [Bool.or_eq_true, beq_iff_eq] using he
      rw [hsame] at hfirst
      simpa only [Bool.or_eq_true, beq_iff_eq] using hfirst
    exact .power hpower (isCaseless_isSign h hsign) (isCaseless_isDigits h' hds)

theorem isCaseless_isNumber : IsCaseless IsNumber := by
  intro w w' h hw
  obtain @⟨sign, mantissa, exponent, unit, hsign, hmantissa, hexponent, hunit⟩ := hw
  obtain ⟨front, unit', rfl, h, hu⟩ := exists_append_of_lower h
  obtain ⟨front, exponent', rfl, h, he⟩ := exists_append_of_lower h
  obtain ⟨sign', mantissa', rfl, hs, hm⟩ := exists_append_of_lower h
  exact .mk (isCaseless_isSign hs hsign) (isCaseless_isMantissa hm hmantissa)
    (isCaseless_isExponent he hexponent) (forall_mem_of_lower ignoresCase_isUnitChar hu hunit)

/-! ## Patterns -/

section Patterns

variable {pattern : List Char → Option (List Char × List Char)} {language : List Char → Prop}
  {word rest cs : List Char}

/-- A word at the beginning of a text that is made small was one before. -/
theorem exists_prefix_of_lower (hl : IsCaseless language) {other : List Char}
    (hother : language other) (h : other <+: lower cs) :
    ∃ front, language front ∧ front <+: cs ∧ lower front = other := by
  obtain ⟨rest, hrest⟩ := h
  obtain ⟨front, back, rfl, rfl, -⟩ := List.map_eq_append_iff.mp hrest.symm
  exact ⟨front, hl (lower_lower front) hother, List.prefix_append front back, rfl⟩

/-- The longest word of a caseless language is found in the same place. -/
theorem IsLongestPrefix.lower (hl : IsCaseless language) (h : IsLongestPrefix language word cs) :
    IsLongestPrefix language (lower word) (lower cs) where
  member := hl (lower_lower word).symm h.member
  begins := h.begins.map Char.toLower
  longest := by
    intro other hother hbegins
    obtain ⟨front, hfront, hprefix, rfl⟩ := exists_prefix_of_lower hl hother hbegins
    rw [length_lower, length_lower]
    exact h.longest front hfront hprefix

theorem Finds.some_lower (f : Finds pattern language) (hl : IsCaseless language)
    (h : pattern (word ++ rest) = some (word, rest)) :
    pattern (lower word ++ lower rest) = some (lower word, lower rest) := by
  apply f.eq_some_iff.mpr
  rw [← lower_append]
  exact (f.longest h).lower hl

theorem Finds.none_lower (f : Finds pattern language) (hl : IsCaseless language)
    (h : pattern cs = none) : pattern (lower cs) = none := by
  apply f.eq_none_iff.mpr
  rintro ⟨other, hother, hbegins⟩
  obtain ⟨front, hfront, hprefix, -⟩ := exists_prefix_of_lower hl hother hbegins
  exact f.missed h ⟨front, hfront, hprefix⟩

end Patterns

/-! ## Tokens -/

theorem toList_lowerText (s : String) : (lowerText s).toList = lower s.toList :=
  String.toList_ofList

/-- The token with its text in small letters. -/
def Token.lower (t : Token) : Token :=
  { t with text := lowerText t.text }

theorem isWord_lower (word cs : List Char) : isWord word (lower cs) = isWord word cs := by
  rw [isWord, isWord, lower_lower]

theorem wordKind_lower (word : List Char) : wordKind (lower word) = wordKind word := by
  simp only [wordKind, isWord_lower]

/-- The lexer finds the small word where it found the word. -/
theorem Lexes.lower {kind : Kind} {word rest : List Char} (h : Lexes kind word rest) :
    Lexes kind (lower word) (lower rest) := by
  cases h with
  | @mark _ c _ hc hmark =>
    rw [← ignoresCase_isBlank] at hc
    rw [← ignoresCase_punctuation?] at hmark
    exact .mark hc hmark
  | @hack c cs _ hc hmark hhack =>
    rw [← ignoresCase_isBlank] at hc
    rw [← ignoresCase_punctuation?] at hmark
    exact .hack hc hmark (hack?_finds.some_lower isCaseless_isHack hhack)
  | @word c cs _ hc hmark hhack hword =>
    have hhack' := hack?_finds.none_lower isCaseless_isHack hhack
    have hword' := identifier?_finds.some_lower isCaseless_isIdentifier hword
    rw [lower_append] at hhack'
    rw [← ignoresCase_isBlank] at hc
    rw [← ignoresCase_punctuation?] at hmark
    rw [← wordKind_lower]
    exact .word hc hmark hhack' hword'
  | @number c cs _ hc hmark hhack hword hnumber =>
    have hhack' := hack?_finds.none_lower isCaseless_isHack hhack
    have hword' := identifier?_finds.none_lower isCaseless_isIdentifier hword
    have hnumber' := number?_finds.some_lower isCaseless_isNumber hnumber
    rw [lower_append] at hhack' hword'
    rw [← ignoresCase_isBlank] at hc
    rw [← ignoresCase_punctuation?] at hmark
    exact .number hc hmark hhack' hword' hnumber'
  | @delim c _ hc hmark hhack hword hnumber =>
    have hhack' := hack?_finds.none_lower isCaseless_isHack hhack
    have hword' := identifier?_finds.none_lower isCaseless_isIdentifier hword
    have hnumber' := number?_finds.none_lower isCaseless_isNumber hnumber
    rw [← ignoresCase_isBlank] at hc
    rw [← ignoresCase_punctuation?] at hmark
    exact .delim hc hmark hhack' hword' hnumber'

theorem Token.lower_ofWord (kind : Kind) (offset : Nat) (word : List Char) :
    (Token.ofWord kind offset word).lower = .ofWord kind offset (MediaQuery.lower word) := by
  simp only [Token.lower, Token.ofWord, lowerText, String.toList_ofList, byteLength_lower]

/-- The tokens of a small text are the small tokens of the text. -/
theorem scan_lower (offset : Nat) (cs : List Char) :
    scan offset (lower cs) = (scan offset cs).map Token.lower := by
  fun_induction scan offset cs with
  | case1 =>
    rw [lower_nil, scan]
    rfl
  | case2 offset c cs hc ih =>
    have hc' : isBlank c.toLower = true := by
      rw [ignoresCase_isBlank, hc]
    rw [lower_cons, scan, if_pos hc', ignoresCase_utf8Size, ih]
  | case3 offset c cs hc stop ih =>
    have hlex := (lexes_lexeme (Bool.eq_false_iff.mpr hc) cs).lower
    have hscan := scan_of_lexes hlex offset
    rw [← lower_append, lexeme_append, byteLength_lower, ih, ← Token.lower_ofWord] at hscan
    rw [hscan, List.map_cons]
    rfl

/-- **A text in small letters has the tokens of the text in small letters**, of the same kinds and
at the same places. -/
theorem tokenize_lower (s : String) : tokenize (lowerText s) = (tokenize s).map Token.lower := by
  rw [tokenize, tokenize, toList_lowerText, scan_lower, byteLength_lower, List.map_append]
  rfl

end MediaQuery
