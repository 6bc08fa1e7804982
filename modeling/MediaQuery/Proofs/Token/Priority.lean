import Mathlib
import MediaQuery.Proofs.Token.Order

/-!
# Priority — which language a token belongs to

A token that is no mark is a word of one of three languages, or a character that begins none of
their words. Hacks come before identifiers, and these before numbers: the first language that has a
word where the token starts gives the token, which is the longest word there
(`tokenize_longest`). The longest word is not always the one that first comes to mind: `2em` is one
number with a unit, of `3e+` the number is `3e`, and of `1e5e5` it is `1e5e`.
-/

namespace MediaQuery

theorem IsLongestPrefix.hasPrefix {language : List Char → Prop} {word cs : List Char}
    (h : IsLongestPrefix language word cs) : HasPrefix language cs :=
  ⟨word, h.member, h.begins⟩

/-- The letters of a word say of what kind it is. -/
theorem wordKind_eq_iff (word : List Char) :
    (wordKind word = .not ↔ lower word = ['n', 'o', 't']) ∧
      (wordKind word = .only ↔ lower word = ['o', 'n', 'l', 'y']) ∧
        (wordKind word = .and ↔ lower word = ['a', 'n', 'd']) ∧
          (wordKind word = .identifier ↔ lower word ∉ keywords) := by
  simp only [wordKind, isWord, beq_iff_eq]
  split_ifs with hnot honly hand
  · rw [hnot]
    decide
  · rw [honly]
    decide
  · rw [hand]
    decide
  · simp only [keywords, hnot, honly, hand, List.mem_cons, List.not_mem_nil, or_self,
      not_false_eq_true, and_self]

/-- The first language that has a word at the beginning of a text gives its first token, and that is
the longest word there. -/
theorem Lexes.priority {kind : Kind} {word rest cs : List Char} (h : Lexes kind word rest)
    (hmark : kind ∉ [.comma, .leftParen, .rightParen, .colon, .slash]) (hcs : cs = word ++ rest) :
    (HasPrefix IsHack cs → kind = .hack ∧ IsLongestPrefix IsHack word cs) ∧
    (¬HasPrefix IsHack cs → HasPrefix IsIdentifier cs →
      kind = wordKind word ∧ IsLongestPrefix IsIdentifier word cs) ∧
    (¬HasPrefix IsHack cs → ¬HasPrefix IsIdentifier cs → HasPrefix IsNumber cs →
      kind = .number ∧ IsLongestPrefix IsNumber word cs) ∧
    (¬HasPrefix IsHack cs → ¬HasPrefix IsIdentifier cs → ¬HasPrefix IsNumber cs →
      kind = .delim ∧ ∃ c, word = [c]) := by
  subst hcs
  cases h with
  | mark _ hpunctuation =>
    have hkind : kind ∈ marks.map Prod.snd := List.mem_map_of_mem (mem_marks hpunctuation)
    exact absurd hkind hmark
  | hack _ _ hhack =>
    have hlongest := hack?_finds.longest hhack
    exact ⟨fun _ => ⟨rfl, hlongest⟩, fun hno => absurd hlongest.hasPrefix hno,
      fun hno => absurd hlongest.hasPrefix hno, fun hno => absurd hlongest.hasPrefix hno⟩
  | word _ _ hhack hword =>
    have hlongest := identifier?_finds.longest hword
    exact ⟨fun h => absurd h (hack?_finds.missed hhack), fun _ _ => ⟨rfl, hlongest⟩,
      fun _ hno => absurd hlongest.hasPrefix hno, fun _ hno => absurd hlongest.hasPrefix hno⟩
  | number _ _ hhack hword hnumber =>
    have hlongest := number?_finds.longest hnumber
    exact ⟨fun h => absurd h (hack?_finds.missed hhack),
      fun _ h => absurd h (identifier?_finds.missed hword), fun _ _ _ => ⟨rfl, hlongest⟩,
      fun _ _ hno => absurd hlongest.hasPrefix hno⟩
  | delim _ _ hhack hword hnumber =>
    exact ⟨fun h => absurd h (hack?_finds.missed hhack),
      fun _ h => absurd h (identifier?_finds.missed hword),
      fun _ _ h => absurd h (number?_finds.missed hnumber), fun _ _ _ => ⟨rfl, _, rfl⟩⟩

/-- **A token is the longest word of the first language that has one.** Where a token starts that is
no mark, a hack goes before an identifier and an identifier before a number, and each of them is
taken as long as it can be; an identifier is a keyword if its letters are those of one, in any case.
Where none of the three begins, the token is a single character. -/
theorem tokenize_longest {input : String} {t : Token} (ht : t ∈ tokenize input)
    (heof : t.kind ≠ .eof) (hmark : t.kind ∉ [.comma, .leftParen, .rightParen, .colon, .slash]) :
    ∃ cs, dropBytes? t.span.start input.toList = some cs ∧
      (HasPrefix IsHack cs → t.kind = .hack ∧ IsLongestPrefix IsHack t.text.toList cs) ∧
      (¬HasPrefix IsHack cs → HasPrefix IsIdentifier cs →
        IsLongestPrefix IsIdentifier t.text.toList cs ∧
        (t.kind = .not ↔ lower t.text.toList = ['n', 'o', 't']) ∧
        (t.kind = .only ↔ lower t.text.toList = ['o', 'n', 'l', 'y']) ∧
        (t.kind = .and ↔ lower t.text.toList = ['a', 'n', 'd']) ∧
        (t.kind = .identifier ↔ lower t.text.toList ∉ keywords)) ∧
      (¬HasPrefix IsHack cs → ¬HasPrefix IsIdentifier cs → HasPrefix IsNumber cs →
        t.kind = .number ∧ IsLongestPrefix IsNumber t.text.toList cs) ∧
      (¬HasPrefix IsHack cs → ¬HasPrefix IsIdentifier cs → ¬HasPrefix IsNumber cs →
        t.kind = .delim ∧ ∃ c, t.text.toList = [c] ∧ [c] <+: cs) := by
  have hscan : t ∈ scan 0 input.toList := by
    rcases mem_tokenize_iff.mp ht with hmem | rfl
    · exact hmem
    · exact absurd rfl heof
  obtain ⟨front, word, rest, htext, hlex, heq⟩ := exists_word_of_mem_scan hscan
  have hstart : byteLength front = t.span.start := by
    rw [heq]
    exact (Nat.zero_add _).symm
  have hword : t.text.toList = word := by
    rw [heq]
    exact String.toList_ofList
  rw [List.append_assoc] at htext
  obtain ⟨hhack, hidentifier, hnumber, hdelim⟩ := hlex.priority hmark rfl
  rw [hword]
  refine ⟨word ++ rest, dropBytes?_eq_some_iff.mpr ⟨front, htext, hstart⟩, hhack, ?_, hnumber, ?_⟩
  · intro hno hprefix
    obtain ⟨hkind, hlongest⟩ := hidentifier hno hprefix
    rw [hkind]
    exact ⟨hlongest, wordKind_eq_iff word⟩
  · intro hno hno' hno''
    obtain ⟨hkind, c, rfl⟩ := hdelim hno hno' hno''
    exact ⟨hkind, c, rfl, List.prefix_append [c] rest⟩

/-- The letter e behind an exponent is a unit, and no digit follows a unit. -/
theorem tokenize_longest_exponent :
    ⟨.number, ⟨1, 5⟩, "1e5e"⟩ ∈ tokenize " 1e5e5" ∧
      IsLongestPrefix IsNumber ['1', 'e', '5', 'e'] ['1', 'e', '5', 'e', '5'] := by
  have htokens : tokenize " 1e5e5" =
      [⟨.number, ⟨1, 5⟩, "1e5e"⟩, ⟨.number, ⟨5, 6⟩, "5"⟩, ⟨.eof, ⟨6, 6⟩, ""⟩] := by cbv
  have hmem : ⟨.number, ⟨1, 5⟩, "1e5e"⟩ ∈ tokenize " 1e5e5" := htokens ▸ List.mem_cons_self
  obtain ⟨cs, hcs, -, -, hnumber, -⟩ := tokenize_longest hmem (by decide) (by decide)
  obtain rfl : ['1', 'e', '5', 'e', '5'] = cs := Option.some.inj hcs
  have hone : IsNumber ['1'] :=
    .mk .none (.whole ⟨List.cons_ne_nil _ _, List.forall_mem_singleton.mpr (by decide)⟩) .none
      fun _ hc => absurd hc List.not_mem_nil
  have hprefix : HasPrefix IsNumber ['1', 'e', '5', 'e', '5'] := ⟨['1'], hone, _, rfl⟩
  exact ⟨hmem, (hnumber (hack?_finds.missed rfl) (identifier?_finds.missed rfl) hprefix).2⟩

end MediaQuery
