import MediaQuery.Token.Pattern

/-!
# Languages — the texts that a token may have

The texts of hacks, identifiers and numbers are three regular languages. They are given here as sets
of texts, without a rule for finding one at the beginning of another text; `IsLongestPrefix` says
what it means for a token to be as long as it can be. A name is an identifier that may stand alone:
it does not begin with a blank and is no keyword.
-/

namespace MediaQuery

/-! ## Hacks and words -/

/-- One or two backslashes and then a hack digit. -/
inductive IsHack : List Char → Prop where
  | one {d : Char} : isHackDigit d = true → IsHack ['\\', d]
  | two {d : Char} : isHackDigit d = true → IsHack ['\\', '\\', d]

/-- Any number of hyphens, a character that starts a word, and any that go on with it. -/
inductive IsIdentifier : List Char → Prop where
  | start {c : Char} {cs : List Char} :
      isNameStart c = true → (∀ d ∈ cs, isNameChar d = true) → IsIdentifier (c :: cs)
  | hyphen {cs : List Char} : IsIdentifier cs → IsIdentifier ('-' :: cs)

/-- The words that are no identifiers, whatever their case. -/
def keywords : List (List Char) :=
  [['n', 'o', 't'], ['o', 'n', 'l', 'y'], ['a', 'n', 'd']]

/-- An identifier that is no keyword and does not begin with a blank. -/
structure IsName (cs : List Char) : Prop where
  identifier : IsIdentifier cs
  noBlank : ∀ c ∈ cs.head?, isBlank c = false
  noKeyword : lower cs ∉ keywords

/-! ## Numbers -/

/-- Nothing, or a plus or minus. -/
inductive IsSign : List Char → Prop where
  | none : IsSign []
  | plus : IsSign ['+']
  | minus : IsSign ['-']

/-- One digit or more. -/
structure IsDigits (cs : List Char) : Prop where
  nonempty : cs ≠ []
  digits : ∀ c ∈ cs, c.isDigit = true

/-- Digits, digits with a fraction, or a fraction alone. -/
inductive IsMantissa : List Char → Prop where
  | whole {ds : List Char} : IsDigits ds → IsMantissa ds
  | both {ds fs : List Char} : IsDigits ds → IsDigits fs → IsMantissa (ds ++ '.' :: fs)
  | fraction {fs : List Char} : IsDigits fs → IsMantissa ('.' :: fs)

/-- Nothing, or the letter e with an optional sign and digits. -/
inductive IsExponent : List Char → Prop where
  | none : IsExponent []
  | power {e : Char} {sign ds : List Char} :
      e = 'e' ∨ e = 'E' → IsSign sign → IsDigits ds → IsExponent (e :: (sign ++ ds))

/-- A sign, a mantissa, an exponent and a run of unit characters, of which only the mantissa must be
there. -/
inductive IsNumber : List Char → Prop where
  | mk {sign mantissa exponent unit : List Char} :
      IsSign sign → IsMantissa mantissa → IsExponent exponent →
        (∀ c ∈ unit, isUnitChar c = true) → IsNumber (sign ++ mantissa ++ exponent ++ unit)

/-! ## Beginnings of a text -/

/-- The text begins with a member of the language. -/
def HasPrefix (language : List Char → Prop) (cs : List Char) : Prop :=
  ∃ word, language word ∧ word <+: cs

/-- The word is the longest member of the language that the text begins with. -/
structure IsLongestPrefix (language : List Char → Prop) (word cs : List Char) : Prop where
  member : language word
  begins : word <+: cs
  longest : ∀ other, language other → other <+: cs → other.length ≤ word.length

end MediaQuery
