/-!
# Characters — runs of code points, blanks and cases

A property of characters that a standard fixes is given by a table of runs of code points. The one
that reading needs is White_Space: a blank may stand between tokens. Six blanks are ASCII, and the
others matter because a blank of either sort may begin a gap between tokens, while only an ASCII one
ends an identifier.

Keywords and modifiers are words of ASCII letters, recognised in any mixture of cases. Letters
outside ASCII have no case here.
-/

namespace MediaQuery

/-! ## Tables -/

/-- A run of code points, both ends included. -/
structure CodeRange where
  first : Nat
  last : Nat
  deriving DecidableEq, Repr

/-- The character's code point lies in the run. -/
def CodeRange.contains (r : CodeRange) (c : Char) : Bool :=
  r.first ≤ c.toNat && c.toNat ≤ r.last

/-! ## Blanks -/

/-- The code points of the Unicode property White_Space, in order. -/
def blankRanges : List CodeRange :=
  [⟨0x09, 0x0D⟩, ⟨0x20, 0x20⟩, ⟨0x85, 0x85⟩, ⟨0xA0, 0xA0⟩, ⟨0x1680, 0x1680⟩, ⟨0x2000, 0x200A⟩,
   ⟨0x2028, 0x2029⟩, ⟨0x202F, 0x202F⟩, ⟨0x205F, 0x205F⟩, ⟨0x3000, 0x3000⟩]

/-- The character is a blank. -/
def isBlank (c : Char) : Bool :=
  blankRanges.any (·.contains c)

/-- The text without the blanks at its end. -/
def trimEnd (cs : List Char) : List Char :=
  (cs.reverse.dropWhile isBlank).reverse

/-! ## Cases -/

/-- The text with its ASCII capitals made small. -/
def lower (cs : List Char) : List Char :=
  cs.map Char.toLower

/-- The text is the given small-letter word, in any case. -/
def isWord (word cs : List Char) : Bool :=
  lower cs == word

/-- The text with its ASCII capitals made small. -/
def lowerText (s : String) : String :=
  String.ofList (lower s.toList)

/-- The letters of core are those of ASCII. -/
theorem isAlpha_iff {c : Char} :
    c.isAlpha = true ↔ ('A' ≤ c ∧ c ≤ 'Z') ∨ ('a' ≤ c ∧ c ≤ 'z') := by
  have hletter : c.isAlpha = (decide ('A' ≤ c ∧ c ≤ 'Z') ||
      (decide ('a' ≤ c) && decide (c ≤ 'z'))) := rfl
  rw [hletter, Bool.or_eq_true, Bool.and_eq_true, decide_eq_true_eq, decide_eq_true_eq,
    decide_eq_true_eq]

theorem lower_nil : lower [] = [] := rfl

theorem lower_append (as bs : List Char) : lower (as ++ bs) = lower as ++ lower bs :=
  List.map_append ..

theorem length_lower (cs : List Char) : (lower cs).length = cs.length :=
  List.length_map ..

end MediaQuery
