import MediaQuery.Json.Basic

/-!
# Reading JSON — a text as a value

The reader takes the grammar of JSON as it stands: blanks between any two words, no trailing comma,
no control character inside a string, and surrogates only in pairs. Of any two steps inside one
another the outer or the inner consumes a character, so a bound of twice the length and one is never
reached (`read?`).
-/

namespace MediaQuery.Json

/-- A blank of JSON. -/
def isSpace (c : Char) : Bool :=
  c == ' ' || c == '\t' || c == '\n' || c == '\r'

/-- The text from its first character that is no blank. -/
def skipSpaces (cs : List Char) : List Char :=
  cs.dropWhile isSpace

/-! ## Strings -/

/-- The value of a hexadecimal digit. -/
def hexValue? (c : Char) : Option Nat :=
  if '0' ≤ c && c ≤ '9' then some (c.toNat - 48)
  else if 'a' ≤ c && c ≤ 'f' then some (c.toNat - 87)
  else if 'A' ≤ c && c ≤ 'F' then some (c.toNat - 55)
  else none

/-- The value of four hexadecimal digits. -/
def unit? (a b c d : Char) : Option Nat :=
  (hexValue? a).bind fun a => (hexValue? b).bind fun b => (hexValue? c).bind fun c =>
    (hexValue? d).map fun d => ((a * 16 + b) * 16 + c) * 16 + d

/-- The character with a code, if there is one. -/
def char? (code : Nat) : Option Char :=
  if h : code.isValidChar then some (Char.ofNatAux code h) else none

/-- The character that a backslash and a letter stand for. -/
def shortEscape? : Char → Option Char
  | '"' => some '"'
  | '\\' => some '\\'
  | '/' => some '/'
  | 'b' => some '\x08'
  | 'f' => some '\x0C'
  | 'n' => some '\n'
  | 'r' => some '\r'
  | 't' => some '\t'
  | _ => none

/-- The rest of a string after its opening quote, and the text after its closing quote. -/
def stringBody? (cs : List Char) : Option (List Char × List Char) :=
  match cs with
  | [] => none
  | '"' :: rest => some ([], rest)
  | '\\' :: 'u' :: a :: b :: c :: d :: rest =>
    match unit? a b c d with
    | none => none
    | some high =>
      if 0xD800 ≤ high && high < 0xDC00 then
        match rest with
        | '\\' :: 'u' :: e :: f :: g :: h :: rest =>
          match unit? e f g h with
          | none => none
          | some low =>
            if 0xDC00 ≤ low && low < 0xE000 then
              (char? (0x10000 + (high - 0xD800) * 0x400 + (low - 0xDC00))).bind fun x =>
                (stringBody? rest).map fun (body, rest) => (x :: body, rest)
            else none
        | _ => none
      else
        (char? high).bind fun x => (stringBody? rest).map fun (body, rest) => (x :: body, rest)
  | '\\' :: c :: rest =>
    (shortEscape? c).bind fun x => (stringBody? rest).map fun (body, rest) => (x :: body, rest)
  | c :: rest =>
    if c == '\\' || c.toNat < 0x20 then none
    else (stringBody? rest).map fun (body, rest) => (c :: body, rest)
termination_by cs.length

/-! ## Numbers -/

/-- The value of a run of digits. -/
def digitsValue (ds : List Char) : Nat :=
  ds.foldl (fun n d => 10 * n + (d.toNat - 48)) 0

/-- The digits at the beginning of a text; there must be one. -/
def digits? (cs : List Char) : Option (List Char × List Char) :=
  match cs.takeWhile Char.isDigit with
  | [] => none
  | ds => some (ds, cs.dropWhile Char.isDigit)

/-- The digits after a point, if the text begins with one. -/
def fraction? : List Char → Option (List Char × List Char)
  | '.' :: rest => digits? rest
  | rest => some ([], rest)

/-- The power of ten after the letter e, if the text begins with one. -/
def exponent? : List Char → Option (Option Int × List Char)
  | [] => some (none, [])
  | e :: rest =>
    if e == 'e' || e == 'E' then
      match rest with
      | '-' :: rest => (digits? rest).map fun (ds, rest) => (some (-(digitsValue ds : Int)), rest)
      | '+' :: rest => (digits? rest).map fun (ds, rest) => (some (digitsValue ds : Int), rest)
      | rest => (digits? rest).map fun (ds, rest) => (some (digitsValue ds : Int), rest)
    else some (none, e :: rest)

/-- An integer with as many of the digits put behind it as leave it in 64 bits, and how many of them
are left over. -/
def extend (n : Nat) : List Char → Nat × Nat
  | [] => (n, 0)
  | d :: ds =>
    let longer := 10 * n + (d.toNat - 48)
    if longer ≤ 0xFFFFFFFFFFFFFFFF then extend longer ds else (n, ds.length + 1)

/-- The binary number that is held for a decimal, if it is not too great. Digits that do not fit in
64 bits are passed over: those before the point move it, those after it do not count. -/
def decimal? (whole fraction : List Char) (power : Int) : Option Binary :=
  let (n, passed) := extend 0 whole
  let (m, dropped) := extend n fraction
  (Binary.ofNat m).scaleTens? (power + passed - (fraction.length - dropped : Nat))

/-- A number without its sign: an integer where it is written without point and power and fits in 64
bits with its sign, and a binary number otherwise. Minus zero is no integer. -/
def magnitude? (negative : Bool) (cs : List Char) : Option (Number × List Char) :=
  (digits? cs).bind fun (whole, rest) =>
    if whole.head? = some '0' ∧ whole.length ≠ 1 then none
    else
      (fraction? rest).bind fun (fraction, rest) =>
        (exponent? rest).bind fun (power, rest) =>
          let n := digitsValue whole
          let signed : Int := if negative then -(n : Int) else n
          let isInteger := fraction.isEmpty && power.isNone && Number.fits signed
          if isInteger && !(negative && n == 0) then some (.integer signed, rest)
          else
            (decimal? whole fraction (power.getD 0)).map fun b => (.binary negative b, rest)

/-- The number at the beginning of a text. -/
def number? : List Char → Option (Number × List Char)
  | '-' :: rest => magnitude? true rest
  | rest => magnitude? false rest

/-! ## Values -/

mutual
/-- The value at the beginning of a text, after any blanks, and what follows it. -/
def value? : Nat → List Char → Option (Json × List Char)
  | 0, _ => none
  | bound + 1, cs =>
    match skipSpaces cs with
    | 'n' :: 'u' :: 'l' :: 'l' :: rest => some (.null, rest)
    | 't' :: 'r' :: 'u' :: 'e' :: rest => some (.bool true, rest)
    | 'f' :: 'a' :: 'l' :: 's' :: 'e' :: rest => some (.bool false, rest)
    | '"' :: rest => (stringBody? rest).map fun (s, rest) => (.string (String.ofList s), rest)
    | '[' :: rest =>
      match skipSpaces rest with
      | ']' :: rest => some (.array [], rest)
      | _ => (items? bound rest).map fun (vs, rest) => (.array vs, rest)
    | '\x7b' :: rest =>
      match skipSpaces rest with
      | '\x7d' :: rest => some (.object [], rest)
      | _ => (members? bound rest).map fun (ms, rest) => (.object ms, rest)
    | rest => (number? rest).map fun (n, rest) => (.number n, rest)
/-- The items of an array up to its closing bracket. -/
def items? : Nat → List Char → Option (List Json × List Char)
  | 0, _ => none
  | bound + 1, cs =>
    (value? bound cs).bind fun (v, rest) =>
      match skipSpaces rest with
      | ',' :: rest => (items? bound rest).map fun (vs, rest) => (v :: vs, rest)
      | ']' :: rest => some ([v], rest)
      | _ => none
/-- The members of an object up to its closing brace. -/
def members? : Nat → List Char → Option (List (String × Json) × List Char)
  | 0, _ => none
  | bound + 1, cs =>
    match skipSpaces cs with
    | '"' :: rest =>
      (stringBody? rest).bind fun (name, rest) =>
        match skipSpaces rest with
        | ':' :: rest =>
          (value? bound rest).bind fun (v, rest) =>
            match skipSpaces rest with
            | ',' :: rest =>
              (members? bound rest).map fun (ms, rest) => ((String.ofList name, v) :: ms, rest)
            | '\x7d' :: rest => some ([(String.ofList name, v)], rest)
            | _ => none
        | _ => none
    | _ => none
end

/-- The value that a text is. -/
def read? (text : String) : Option Json :=
  (value? (2 * text.toList.length + 1) text.toList).bind fun (v, rest) =>
    if (skipSpaces rest).isEmpty then some v else none

end MediaQuery.Json
