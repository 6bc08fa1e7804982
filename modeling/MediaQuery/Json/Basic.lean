import MediaQuery.Number.Binary

/-!
# JSON values — the data that query lists are exchanged as

A JSON value is a tree of the usual six sorts. Numbers are told apart as readers of the format do:
an integer that fits in 64 bits is one, and any other number is held as a binary number.
Objects keep their members in the order of the text; where a name occurs twice the last one counts.
-/

namespace MediaQuery

/-- A number of a JSON text. -/
inductive Number where
  /-- an integer of 64 bits, with or without a sign -/
  | integer (n : Int)
  /-- any other number, and whether it was written with a minus sign -/
  | binary (negative : Bool) (b : Binary)
  deriving DecidableEq, Repr

namespace Number

/-- The integer is one of 64 bits, with or without a sign. -/
def fits (n : Int) : Bool :=
  -0x8000000000000000 ≤ n && n ≤ 0xFFFFFFFFFFFFFFFF

/-- The shortest text of a number. -/
def text : Number → String
  | .integer n => toString n
  | .binary negative b => (if negative then "-" else "") ++ b.shortest.text

end Number

/-- A JSON value. -/
inductive Json where
  | null
  | bool (b : Bool)
  | number (n : Number)
  | string (s : String)
  | array (items : List Json)
  | object (members : List (String × Json))
  deriving Repr

namespace Json

/-- The value that the last member of a name has. -/
def member? (members : List (String × Json)) (name : String) : Option Json :=
  (members.reverse.find? fun m => m.1 == name).map Prod.snd

/-! ## Compact text

Strings are written with a short escape where JSON has one, other control characters by their code,
and everything else as it is. Members and items are written in their order.
-/

/-- The hexadecimal digit, in small letters. -/
def hexDigit (n : Nat) : Char :=
  Nat.digitChar (n % 16)

/-- How a character is written in a string. -/
def escape (c : Char) : List Char :=
  if c = '"' then ['\\', '"']
  else if c = '\\' then ['\\', '\\']
  else if c = '\n' then ['\\', 'n']
  else if c = '\r' then ['\\', 'r']
  else if c = '\t' then ['\\', 't']
  else if c.toNat = 0x08 then ['\\', 'b']
  else if c.toNat = 0x0C then ['\\', 'f']
  else if c.toNat < 0x20 then ['\\', 'u', '0', '0', hexDigit (c.toNat / 16), hexDigit c.toNat]
  else [c]

/-- A string in its quotes. -/
def quote (s : String) : List Char :=
  '"' :: (s.toList.flatMap escape ++ ['"'])

mutual
/-- The text of a value. -/
def write : Json → List Char
  | .null => ['n', 'u', 'l', 'l']
  | .bool true => ['t', 'r', 'u', 'e']
  | .bool false => ['f', 'a', 'l', 's', 'e']
  | .number n => n.text.toList
  | .string s => quote s
  | .array [] => ['[', ']']
  | .array (v :: vs) => '[' :: (write v ++ (writeItems vs ++ [']']))
  | .object [] => ['\x7b', '\x7d']
  | .object ((name, v) :: ms) =>
    '\x7b' :: (quote name ++ ':' :: (write v ++ (writeMembers ms ++ ['\x7d'])))
/-- The text of the items after the first, with the commas before them. -/
def writeItems : List Json → List Char
  | [] => []
  | v :: vs => ',' :: (write v ++ writeItems vs)
/-- The text of the members after the first, with the commas before them. -/
def writeMembers : List (String × Json) → List Char
  | [] => []
  | (name, v) :: ms => ',' :: (quote name ++ ':' :: (write v ++ writeMembers ms))
end

/-- The compact text of a value. -/
def compact (v : Json) : String :=
  String.ofList (write v)

end Json

end MediaQuery
