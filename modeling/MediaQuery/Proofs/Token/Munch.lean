import Mathlib.Data.List.TakeWhile
import MediaQuery.Token.Language
import MediaQuery.Token.Lexer

/-!
# Longest prefixes — what the patterns find

The three patterns of the lexer are greedy, and their languages are given without any rule for
finding a word at the beginning of a text. `Finds` ties the two: a pattern cuts off the longest
word of its language, and misses only a text that begins with no word of it. The statements are
`hack?_finds`, `identifier?_finds` and `number?_finds`.

Two consequences need nothing else of a pattern. A text cut short behind the word still gives the
same word, because every prefix of the shorter text is one of the longer (`Finds.some_of_prefix`).
And a character that no word contains stops the pattern, whatever follows it
(`Finds.some_of_stop`).
-/

namespace MediaQuery

variable {pattern : List Char → Option (List Char × List Char)} {language : List Char → Prop}

/-- The pattern cuts off the longest word of the language that the text begins with, and misses
only a text that begins with none. -/
structure Finds (pattern : List Char → Option (List Char × List Char))
    (language : List Char → Prop) : Prop where
  append : ∀ {cs word rest}, pattern cs = some (word, rest) → word ++ rest = cs
  longest : ∀ {cs word rest}, pattern cs = some (word, rest) → IsLongestPrefix language word cs
  missed : ∀ {cs}, pattern cs = none → ¬ HasPrefix language cs

/-- A text has one longest prefix in a language. -/
theorem IsLongestPrefix.unique {word other cs : List Char}
    (h : IsLongestPrefix language word cs) (h' : IsLongestPrefix language other cs) :
    word = other := by
  have hle := h'.longest word h.member h.begins
  have hge := h.longest other h'.member h'.begins
  exact (List.prefix_of_prefix_length_le h.begins h'.begins hle).eq_of_length
    (Nat.le_antisymm hle hge)

namespace Finds

theorem eq_none_iff (f : Finds pattern language) {cs : List Char} :
    pattern cs = none ↔ ¬ HasPrefix language cs := by
  refine ⟨f.missed, ?_⟩
  intro h
  cases hp : pattern cs with
  | none => rfl
  | some found =>
    obtain ⟨word, rest⟩ := found
    have hl := f.longest hp
    exact absurd ⟨word, hl.member, hl.begins⟩ h

theorem eq_some_iff (f : Finds pattern language) {word rest : List Char} :
    pattern (word ++ rest) = some (word, rest) ↔
      IsLongestPrefix language word (word ++ rest) := by
  refine ⟨f.longest, ?_⟩
  intro h
  cases hp : pattern (word ++ rest) with
  | none => exact absurd ⟨word, h.member, h.begins⟩ (f.missed hp)
  | some found =>
    obtain ⟨other, rest'⟩ := found
    have happ := f.append hp
    obtain rfl := (f.longest hp).unique h
    rw [List.append_cancel_left happ]

/-- Cutting the text short behind the word changes nothing. -/
theorem some_of_prefix (f : Finds pattern language) {word rest rest' : List Char}
    (h : pattern (word ++ rest) = some (word, rest)) (hp : rest' <+: rest) :
    pattern (word ++ rest') = some (word, rest') := by
  have hl := f.longest h
  have hcut : word ++ rest' <+: word ++ rest := (List.prefix_append_right_inj word).mpr hp
  refine f.eq_some_iff.mpr ⟨hl.member, List.prefix_append word rest', ?_⟩
  intro other hother hbegins
  exact hl.longest other hother (hbegins.trans hcut)

theorem none_of_prefix (f : Finds pattern language) {cs cs' : List Char}
    (h : pattern cs = none) (hp : cs' <+: cs) : pattern cs' = none := by
  apply f.eq_none_iff.mpr
  rintro ⟨word, hword, hbegins⟩
  exact f.missed h ⟨word, hword, hbegins.trans hp⟩

end Finds

/-- A prefix that does not contain the first character of the rest ends before it. -/
theorem prefix_of_prefix_append_cons {word cs more : List Char} {c : Char}
    (h : word <+: cs ++ c :: more) (hc : c ∉ word) : word <+: cs := by
  rcases le_total word.length cs.length with hle | hle
  · exact List.prefix_of_prefix_length_le h (List.prefix_append cs _) hle
  · obtain ⟨tail, rfl⟩ := List.prefix_of_prefix_length_le (List.prefix_append cs _) h hle
    cases tail with
    | nil => simp only [List.append_nil, List.prefix_rfl]
    | cons d tail =>
      have hd := (List.cons_prefix_cons.mp ((List.prefix_append_right_inj cs).mp h)).1
      exact absurd (hd ▸ List.mem_append_right cs List.mem_cons_self) hc

namespace Finds

/-- A character that no word contains stops the pattern, whatever follows it. -/
theorem some_of_stop (f : Finds pattern language) {c : Char}
    (hc : ∀ word, language word → c ∉ word) {word rest : List Char} (more : List Char)
    (h : pattern (word ++ rest) = some (word, rest)) :
    pattern (word ++ (rest ++ c :: more)) = some (word, rest ++ c :: more) := by
  have hl := f.longest h
  refine f.eq_some_iff.mpr ⟨hl.member, List.prefix_append word _, ?_⟩
  intro other hother hbegins
  rw [← List.append_assoc] at hbegins
  exact hl.longest other hother (prefix_of_prefix_append_cons hbegins (hc other hother))

theorem none_of_stop (f : Finds pattern language) {c : Char}
    (hc : ∀ word, language word → c ∉ word) {cs : List Char} (more : List Char)
    (h : pattern cs = none) : pattern (cs ++ c :: more) = none := by
  apply f.eq_none_iff.mpr
  rintro ⟨word, hword, hbegins⟩
  exact f.missed h ⟨word, hword, prefix_of_prefix_append_cons hbegins (hc word hword)⟩

/-- A pattern finds a language if what it cuts off is a word and it goes past no word. -/
theorem of_greedy
    (append : ∀ {cs word rest}, pattern cs = some (word, rest) → word ++ rest = cs)
    (member : ∀ {cs word rest}, pattern cs = some (word, rest) → language word)
    (greedy : ∀ {word} (more), language word →
      ∃ tail rest, pattern (word ++ more) = some (word ++ tail, rest)) :
    Finds pattern language where
  append := append
  longest := by
    intro cs word rest h
    refine ⟨member h, ⟨rest, append h⟩, ?_⟩
    rintro other hother ⟨more, rfl⟩
    obtain ⟨tail, rest', hgreedy⟩ := greedy more hother
    obtain rfl : word = other ++ tail := congrArg Prod.fst (Option.some.inj (h.symm.trans hgreedy))
    rw [List.length_append]
    exact Nat.le_add_right _ _
  missed := by
    rintro cs h ⟨word, hword, more, rfl⟩
    obtain ⟨tail, rest, hgreedy⟩ := greedy more hword
    rw [h] at hgreedy
    cases hgreedy

end Finds

/-! ## Hacks -/

theorem IsHack.of_hack? {cs word rest : List Char} (h : hack? cs = some (word, rest)) :
    IsHack word := by
  unfold hack? at h
  split at h
  · split at h
    · next hd => cases h; exact .two hd
    · cases h
  · split at h
    · next hd => cases h; exact .one hd
    · cases h
  · cases h

/-- A hack is found whatever follows it. -/
theorem hack?_append_of_isHack {word : List Char} (h : IsHack word) (rest : List Char) :
    hack? (word ++ rest) = some (word, rest) := by
  cases h with
  | one hd => rcases isHackDigit_iff.mp hd with rfl | rfl <;> rfl
  | two hd => rcases isHackDigit_iff.mp hd with rfl | rfl <;> rfl

theorem hack?_finds : Finds hack? IsHack :=
  .of_greedy (fun h => (hack?_append h).1) IsHack.of_hack? fun more h =>
    ⟨[], more, by rw [List.append_nil]; exact hack?_append_of_isHack h more⟩

/-! ## Words -/

theorem ne_hyphen_of_isNameStart {c : Char} (h : isNameStart c = true) : (c == '-') = false := by
  cases hc : c == '-' with
  | false => rfl
  | true => rw [eq_of_beq hc] at h; exact absurd h (by decide)

theorem isNameChar_of_isNameStart {c : Char} (h : isNameStart c = true) : isNameChar c = true :=
  isNameChar_iff.mpr (.inl h)

/-- Every character of an identifier goes on with a word. -/
theorem IsIdentifier.isNameChar {cs : List Char} (h : IsIdentifier cs) :
    ∀ c ∈ cs, isNameChar c = true := by
  induction h with
  | start hc hcs =>
    intro d hd
    rcases List.mem_cons.mp hd with rfl | hd
    · exact isNameChar_of_isNameStart hc
    · exact hcs d hd
  | hyphen _ ih =>
    intro d hd
    rcases List.mem_cons.mp hd with rfl | hd
    · decide
    · exact ih d hd

theorem IsIdentifier.of_all {c : Char} {cs : List Char} (hc : isNameStart c = true)
    (hcs : cs.all MediaQuery.isNameChar = true) : IsIdentifier (c :: cs) :=
  .start hc (List.all_eq_true.mp hcs)

/-- Hyphens before an identifier leave it one. -/
theorem IsIdentifier.hyphens {cs : List Char} (h : IsIdentifier cs) {hs : List Char}
    (hhs : ∀ c ∈ hs, c = '-') : IsIdentifier (hs ++ cs) := by
  induction hs with
  | nil => exact h
  | cons c hs ih =>
    rw [hhs c List.mem_cons_self]
    exact .hyphen (ih fun d hd => hhs d (List.mem_cons_of_mem c hd))

theorem IsIdentifier.of_identifier? {cs word rest : List Char}
    (h : identifier? cs = some (word, rest)) : IsIdentifier word := by
  unfold identifier? at h
  split at h
  · cases h
  · next c tail _ =>
    split at h
    · next hc =>
      cases h
      have htail : IsIdentifier (c :: tail.takeWhile MediaQuery.isNameChar) :=
        .start hc fun d hd => List.mem_takeWhile_imp hd
      exact htail.hyphens fun d hd => eq_of_beq (List.mem_takeWhile_imp (p := (· == '-')) hd)
    · cases h

theorem identifier?_hyphen (cs : List Char) :
    identifier? ('-' :: cs) = (identifier? cs).map fun found => ('-' :: found.1, found.2) := by
  simp only [identifier?, List.dropWhile_cons, List.takeWhile_cons, beq_self_eq_true, if_true]
  split
  · rfl
  · split <;> rfl

/-- From an identifier on, the pattern takes all that goes on with it. -/
theorem identifier?_append_of_isIdentifier {word : List Char} (h : IsIdentifier word)
    (more : List Char) :
    identifier? (word ++ more) =
      some (word ++ more.takeWhile isNameChar, more.dropWhile isNameChar) := by
  induction h with
  | @start c cs hc hcs =>
    simp only [identifier?, List.cons_append, List.dropWhile_cons, List.takeWhile_cons,
      ne_hyphen_of_isNameStart hc, Bool.false_eq_true, if_false, if_pos hc, List.nil_append,
      List.takeWhile_append_of_pos hcs, List.dropWhile_append_of_pos hcs]
  | hyphen _ ih => rw [List.cons_append, identifier?_hyphen, ih]; rfl

/-- A run of characters ends at once where the first is none of them. -/
theorem takeWhile_dropWhile_of_head {p : Char → Bool} {cs : List Char}
    (h : ∀ c ∈ cs.head?, p c = false) : cs.takeWhile p = [] ∧ cs.dropWhile p = cs := by
  cases cs with
  | nil => exact ⟨rfl, rfl⟩
  | cons c cs =>
    have hc := h c rfl
    simp only [List.takeWhile_cons, List.dropWhile_cons, hc, Bool.false_eq_true, if_false, and_self]

/-- An identifier is found where no character goes on with it. -/
theorem identifier?_append_of_stop {word rest : List Char} (h : IsIdentifier word)
    (hstop : ∀ c ∈ rest.head?, isNameChar c = false) :
    identifier? (word ++ rest) = some (word, rest) := by
  obtain ⟨htake, hdrop⟩ := takeWhile_dropWhile_of_head hstop
  rw [identifier?_append_of_isIdentifier h, htake, hdrop, List.append_nil]

theorem identifier?_finds : Finds identifier? IsIdentifier :=
  .of_greedy (fun h => (identifier?_append h).1) IsIdentifier.of_identifier? fun more h =>
    ⟨_, _, identifier?_append_of_isIdentifier h more⟩

end MediaQuery
