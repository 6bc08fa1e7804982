import MediaQuery.Text.Character
import MediaQuery.Token.Basic

/-!
# Patterns — what a token can look like

A pattern looks at the beginning of a text. If a token of its sort begins there, it splits the text
into that token, as long as it can be made, and the rest. Each pattern is written with `takeWhile`
and `dropWhile`, so the two parts put together are always the text (`hack?_append`,
`identifier?_append`, `number?_append`) and the first part is never empty.
-/

namespace MediaQuery

/-! ## Classes of characters -/

/-- A character that a word may start with, after any hyphens: an ASCII letter, an underscore or
anything outside ASCII. -/
def isNameStart (c : Char) : Bool :=
  c.isAlpha || c == '_' || 0x80 ≤ c.toNat

theorem isNameStart_iff {c : Char} : isNameStart c = true ↔
    (('A' ≤ c ∧ c ≤ 'Z') ∨ ('a' ≤ c ∧ c ≤ 'z')) ∨ c = '_' ∨ 0x80 ≤ c.toNat := by
  rw [isNameStart, Bool.or_eq_true, Bool.or_eq_true, isAlpha_iff, beq_iff_eq, decide_eq_true_eq,
    or_assoc]

/-- A character that a word may go on with: one that starts a word, a digit or a hyphen. -/
def isNameChar (c : Char) : Bool :=
  isNameStart c || c.isDigit || c == '-'

theorem isNameChar_iff {c : Char} : isNameChar c = true ↔
    isNameStart c = true ∨ c.isDigit = true ∨ c = '-' := by
  rw [isNameChar, Bool.or_eq_true, Bool.or_eq_true, beq_iff_eq, or_assoc]

/-- The digit of a hack. -/
def isHackDigit (c : Char) : Bool :=
  c == '0' || c == '9'

theorem isHackDigit_iff {c : Char} : isHackDigit c = true ↔ c = '0' ∨ c = '9' := by
  rw [isHackDigit, Bool.or_eq_true, beq_iff_eq, beq_iff_eq]

/-- A character of a unit: an ASCII letter or the percent sign. -/
def isUnitChar (c : Char) : Bool :=
  c.isAlpha || c == '%'

theorem isUnitChar_iff {c : Char} : isUnitChar c = true ↔
    (('A' ≤ c ∧ c ≤ 'Z') ∨ ('a' ≤ c ∧ c ≤ 'z')) ∨ c = '%' := by
  rw [isUnitChar, Bool.or_eq_true, isAlpha_iff, beq_iff_eq]

/-! ## Hacks -/

/-- One or two backslashes and then a hack digit. -/
def hack? : List Char → Option (List Char × List Char)
  | '\\' :: '\\' :: d :: rest => if isHackDigit d then some (['\\', '\\', d], rest) else none
  | '\\' :: d :: rest => if isHackDigit d then some (['\\', d], rest) else none
  | _ => none

/-! ## Words -/

/-- Any number of hyphens, a character that starts a word, and all that go on with it. -/
def identifier? (cs : List Char) : Option (List Char × List Char) :=
  match cs.dropWhile (· == '-') with
  | [] => none
  | c :: rest =>
    if isNameStart c then
      some (cs.takeWhile (· == '-') ++ c :: rest.takeWhile isNameChar, rest.dropWhile isNameChar)
    else
      none

/-- The kind of a word: a keyword in any case, and an identifier otherwise. -/
def wordKind (word : List Char) : Kind :=
  if isWord ['n', 'o', 't'] word then .not
  else if isWord ['o', 'n', 'l', 'y'] word then .only
  else if isWord ['a', 'n', 'd'] word then .and
  else .identifier

/-! ## Numbers -/

/-- The sign at the beginning of a text, if there is one. -/
def splitSign : List Char → List Char × List Char
  | '+' :: rest => (['+'], rest)
  | '-' :: rest => (['-'], rest)
  | rest => ([], rest)

/-- The digits at the beginning of a text. -/
def splitDigits (cs : List Char) : List Char × List Char :=
  (cs.takeWhile Char.isDigit, cs.dropWhile Char.isDigit)

/-- A point with at least one digit after it, if that is how the text begins. -/
def splitFraction : List Char → List Char × List Char
  | '.' :: rest =>
    match splitDigits rest with
    | ([], _) => ([], '.' :: rest)
    | (digits, rest) => ('.' :: digits, rest)
  | rest => ([], rest)

/-- The letter e with an optional sign and at least one digit after it, if that is how the text
begins. -/
def splitExponent : List Char → List Char × List Char
  | [] => ([], [])
  | e :: rest =>
    if e == 'e' || e == 'E' then
      match splitDigits (splitSign rest).2 with
      | ([], _) => ([], e :: rest)
      | (digits, after) => (e :: ((splitSign rest).1 ++ digits), after)
    else
      ([], e :: rest)

/-- The unit at the beginning of a text. -/
def splitUnit (cs : List Char) : List Char × List Char :=
  (cs.takeWhile isUnitChar, cs.dropWhile isUnitChar)

/-- Digits with an optional fraction, or a fraction alone. -/
def mantissa? (cs : List Char) : Option (List Char × List Char) :=
  let whole := splitDigits cs
  let fraction := splitFraction whole.2
  if whole.1.isEmpty && fraction.1.isEmpty then none
  else some (whole.1 ++ fraction.1, fraction.2)

/-- An optional sign, a mantissa, an optional exponent and an optional unit. -/
def number? (cs : List Char) : Option (List Char × List Char) :=
  let sign := splitSign cs
  (mantissa? sign.2).map fun mantissa =>
    let exponent := splitExponent mantissa.2
    let unit := splitUnit exponent.2
    (sign.1 ++ mantissa.1 ++ exponent.1 ++ unit.1, unit.2)

/-! ## Marks -/

/-- The marks that are tokens of their own wherever a token starts. -/
def punctuation? : Char → Option Kind
  | ',' => some .comma
  | '(' => some .leftParen
  | ')' => some .rightParen
  | ':' => some .colon
  | '/' => some .slash
  | _ => none

end MediaQuery
