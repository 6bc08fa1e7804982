import MediaQuery.Token.Pattern

/-!
# The lexer — a text as a list of tokens

Blanks are skipped where a token would start. Elsewhere the first pattern that matches gives the
token, in the order mark, hack, word, number; a character that begins none of them is a token by
itself, so lexing never fails. `scan` goes through the text from a byte offset on, and `tokenize`
adds the token that marks the end.
-/

namespace MediaQuery

/-- The beginning of a text cut into one token and the rest. -/
structure Lexeme where
  kind : Kind
  text : List Char
  rest : List Char
  deriving DecidableEq, Repr

/-- The token at the beginning of a text whose first character is no blank. -/
def lexeme (c : Char) (cs : List Char) : Lexeme :=
  match punctuation? c with
  | some kind => ⟨kind, [c], cs⟩
  | none =>
    match hack? (c :: cs) with
    | some (text, rest) => ⟨.hack, text, rest⟩
    | none =>
      match identifier? (c :: cs) with
      | some (text, rest) => ⟨wordKind text, text, rest⟩
      | none =>
        match number? (c :: cs) with
        | some (text, rest) => ⟨.number, text, rest⟩
        | none => ⟨.delim, [c], cs⟩

/-! ## Nothing is lost -/

theorem hack?_append {cs text rest : List Char} (h : hack? cs = some (text, rest)) :
    text ++ rest = cs ∧ text ≠ [] := by
  unfold hack? at h
  split at h
  · split at h <;> cases h
    exact ⟨rfl, List.cons_ne_nil _ _⟩
  · split at h <;> cases h
    exact ⟨rfl, List.cons_ne_nil _ _⟩
  · cases h

theorem identifier?_append {cs text rest : List Char} (h : identifier? cs = some (text, rest)) :
    text ++ rest = cs ∧ text ≠ [] := by
  unfold identifier? at h
  split at h
  · cases h
  · next c tail hdrop =>
    split at h <;> cases h
    refine ⟨?_, List.append_ne_nil_of_right_ne_nil _ (List.cons_ne_nil _ _)⟩
    rw [List.append_assoc, List.cons_append, List.takeWhile_append_dropWhile, ← hdrop,
      List.takeWhile_append_dropWhile]

theorem splitSign_append (cs : List Char) : (splitSign cs).1 ++ (splitSign cs).2 = cs := by
  unfold splitSign
  split <;> rfl

theorem splitDigits_append (cs : List Char) : (splitDigits cs).1 ++ (splitDigits cs).2 = cs :=
  List.takeWhile_append_dropWhile

theorem splitFraction_append (cs : List Char) :
    (splitFraction cs).1 ++ (splitFraction cs).2 = cs := by
  unfold splitFraction
  split
  · next rest =>
    have happ := splitDigits_append rest
    split
    · rfl
    · next digits after hd => rw [hd] at happ; rw [List.cons_append, happ]
  · rfl

theorem splitExponent_append (cs : List Char) :
    (splitExponent cs).1 ++ (splitExponent cs).2 = cs := by
  unfold splitExponent
  split
  · rfl
  · next e rest =>
    split
    · have hsign := splitSign_append rest
      have happ := splitDigits_append (splitSign rest).2
      split
      · rfl
      · next digits after hd =>
        rw [hd] at happ
        rw [List.cons_append, List.append_assoc, happ, hsign]
    · rfl

theorem splitUnit_append (cs : List Char) : (splitUnit cs).1 ++ (splitUnit cs).2 = cs :=
  List.takeWhile_append_dropWhile

theorem mantissa?_append {cs text rest : List Char} (h : mantissa? cs = some (text, rest)) :
    text ++ rest = cs ∧ text ≠ [] := by
  simp only [mantissa?] at h
  split at h
  · cases h
  · next hne =>
    cases h
    refine ⟨?_, fun hnil => hne ?_⟩
    · rw [List.append_assoc, splitFraction_append, splitDigits_append]
    · rw [(List.append_eq_nil_iff.mp hnil).1, (List.append_eq_nil_iff.mp hnil).2]
      rfl

theorem number?_append {cs text rest : List Char} (h : number? cs = some (text, rest)) :
    text ++ rest = cs ∧ text ≠ [] := by
  obtain ⟨mantissa, hm, heq⟩ := Option.map_eq_some_iff.mp h
  obtain ⟨happ, hne⟩ := mantissa?_append hm
  obtain ⟨rfl, rfl⟩ := Prod.mk.inj heq
  refine ⟨?_, fun hnil => hne ?_⟩
  · simp only [List.append_assoc, splitUnit_append, splitExponent_append, happ, splitSign_append]
  · exact (List.append_eq_nil_iff.mp (List.append_eq_nil_iff.mp
      (List.append_eq_nil_iff.mp hnil).1).1).2

/-- A lexeme's text and rest put together are the text it was cut from. -/
theorem lexeme_append (c : Char) (cs : List Char) :
    (lexeme c cs).text ++ (lexeme c cs).rest = c :: cs := by
  unfold lexeme
  split
  · rfl
  · split
    · next h => exact (hack?_append h).1
    · split
      · next h => exact (identifier?_append h).1
      · split
        · next h => exact (number?_append h).1
        · rfl

/-- A lexeme's text holds at least one character. -/
theorem lexeme_text_ne_nil (c : Char) (cs : List Char) : (lexeme c cs).text ≠ [] := by
  unfold lexeme
  split
  · exact List.cons_ne_nil _ _
  · split
    · next h => exact (hack?_append h).2
    · split
      · next h => exact (identifier?_append h).2
      · split
        · next h => exact (number?_append h).2
        · exact List.cons_ne_nil _ _

/-- What a lexeme leaves is no longer than what follows its first character. -/
theorem length_lexeme_rest (c : Char) (cs : List Char) : (lexeme c cs).rest.length ≤ cs.length := by
  have happ := congrArg List.length (lexeme_append c cs)
  have hne := List.length_pos_iff.mpr (lexeme_text_ne_nil c cs)
  rw [List.length_append, List.length_cons] at happ
  omega

/-! ## The whole text -/

/-- The tokens of a text that begins at a byte offset, without the end. -/
def scan (offset : Nat) : List Char → List Token
  | [] => []
  | c :: cs =>
    if isBlank c then
      scan (offset + c.utf8Size) cs
    else
      let stop := offset + byteLength (lexeme c cs).text
      ⟨(lexeme c cs).kind, ⟨offset, stop⟩, String.ofList (lexeme c cs).text⟩ ::
        scan stop (lexeme c cs).rest
termination_by cs => cs.length
decreasing_by
  · exact Nat.lt_succ_self _
  · exact Nat.lt_succ_of_le (length_lexeme_rest c cs)

/-- Tokens do not depend on where the text begins; their spans move with it. -/
theorem scan_add (n offset : Nat) (cs : List Char) :
    scan (n + offset) cs = (scan offset cs).map (Token.shift n) := by
  fun_induction scan offset cs with
  | case1 => rw [scan, List.map_nil]
  | case2 offset c cs h ih => rw [scan, if_pos h, Nat.add_assoc, ih]
  | case3 offset c cs h stop ih =>
    rw [scan, if_neg h, List.map_cons, ← ih]
    simp only [Token.shift, stop, Nat.add_assoc]

/-- The tokens of a text, the last of which marks its end. -/
def tokenize (input : String) : List Token :=
  scan 0 input.toList ++ [Token.endAt (byteLength input.toList)]

end MediaQuery
