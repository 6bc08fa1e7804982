import MediaQuery.Text.Character
import MediaQuery.Text.Span

/-!
# Tokens — the words and marks of a media query list

A token has a kind, the span it takes in the text it was found in, and its own text. The reader of
queries looks at all three, so a token list made by hand may well carry a text that differs from
what stands at its span. A list whose tokens all stand where they say tiles the text (`Tiles`).
-/

namespace MediaQuery

/-- What a token is. -/
inductive Kind where
  /-- the keyword `not`, in any case -/
  | not
  /-- the keyword `only`, in any case -/
  | only
  /-- the keyword `and`, in any case -/
  | and
  /-- any other word -/
  | identifier
  /-- a number with or without a unit: `2`, `1.5`, `48em`, `50%` -/
  | number
  /-- a browser hack: one or two backslashes and then `0` or `9` -/
  | hack
  | leftParen
  | rightParen
  | colon
  | comma
  | slash
  /-- a single character that begins none of the others -/
  | delim
  /-- the end of the text -/
  | eof
  deriving DecidableEq, Repr

/-- The kinds that end a clause. -/
def Kind.endsClause : Kind → Bool
  | .comma | .eof => true
  | _ => false

theorem Kind.endsClause_iff {kind : Kind} :
    kind.endsClause = true ↔ kind = .comma ∨ kind = .eof := by
  cases kind <;> simp only [endsClause, reduceCtorEq, or_true, true_or, or_self]

theorem Kind.ne_of_endsClause {kind other : Kind} (h : kind.endsClause = true)
    (hother : other.endsClause = false) : kind ≠ other := by
  rintro rfl
  rw [h] at hother
  cases hother

/-- A word or mark of a text, with the place where it stands. -/
structure Token where
  kind : Kind
  span : Span
  text : String
  deriving DecidableEq, Repr

/-- The same token, found so many bytes later. -/
def Token.shift (n : Nat) (t : Token) : Token :=
  { t with span := ⟨n + t.span.start, n + t.span.stop⟩ }

/-- The token that marks the end of a text of so many bytes. -/
def Token.endAt (n : Nat) : Token :=
  ⟨.eof, ⟨n, n⟩, ""⟩

/-! ## Tilings

A token list tiles a text if the tokens stand in it in order, each at its span, with nothing but
blanks between them. The relation says nothing of where one token ends and the next begins; it is
what reading from the places of tokens relies on.
-/

/-- The tokens stand in a text that begins at a byte offset, with blanks around them, and the last
of them marks its end. -/
inductive Tiles : Nat → List Char → List Token → Prop where
  | done {offset : Nat} {gap : List Char} :
      (∀ c ∈ gap, isBlank c = true) → Tiles offset gap [Token.endAt (offset + byteLength gap)]
  | token {offset : Nat} {gap : List Char} {kind : Kind} {c : Char} {cs rest : List Char}
      {tokens : List Token} :
      (∀ d ∈ gap, isBlank d = true) → isBlank c = false → kind ≠ .eof →
        Tiles (offset + byteLength gap + byteLength (c :: cs)) rest tokens →
          Tiles offset (gap ++ c :: cs ++ rest)
            (⟨kind, ⟨offset + byteLength gap, offset + byteLength gap + byteLength (c :: cs)⟩,
              String.ofList (c :: cs)⟩ :: tokens)

end MediaQuery
