import DataAccess.Number.Text
import DataAccess.Value.Basic

/-!
# The text of a value

Values are written without any space. A text is written between quotation marks; in it the
quotation mark, the backslash and the characters below the blank are escaped, five of them by a
letter and the others by their code in lower-case hexadecimal, and every other character stands
for itself.

- `Value.chars`, `Value.render`: the text of a value, as characters and as a string.
- `quoteChars`: the quoted form of a text.
-/

namespace DataAccess

/-- The lower-case hexadecimal digit for a number below sixteen. -/
def hexChar (n : Nat) : Char :=
  if n < 10 then Char.ofNat ('0'.toNat + n) else Char.ofNat ('a'.toNat + (n - 10))

/-- A character as it is written inside quotation marks. -/
def escapeChar (c : Char) : List Char :=
  if c = '"' then ['\\', '"']
  else if c = '\\' then ['\\', '\\']
  else if c.toNat = 0x08 then ['\\', 'b']
  else if c.toNat = 0x0C then ['\\', 'f']
  else if c.toNat = 0x0A then ['\\', 'n']
  else if c.toNat = 0x0D then ['\\', 'r']
  else if c.toNat = 0x09 then ['\\', 't']
  else if c.toNat < 0x20 then
    ['\\', 'u', '0', '0', hexChar (c.toNat / 16), hexChar (c.toNat % 16)]
  else [c]

/-- A text between quotation marks. -/
def quoteChars (s : String) : List Char := '"' :: s.toList.flatMap escapeChar ++ ['"']

namespace Value

mutual

/-- The text of a value. -/
def chars : Value → List Char
  | null => ['n', 'u', 'l', 'l']
  | bool true => ['t', 'r', 'u', 'e']
  | bool false => ['f', 'a', 'l', 's', 'e']
  | number n => n.chars
  | string s => quoteChars s
  | array [] => ['[', ']']
  | array (item :: rest) => '[' :: chars item ++ itemChars rest ++ [']']
  | object [] => ['\x7b', '\x7d']
  | object ((name, value) :: rest) =>
    '\x7b' :: quoteChars name ++ ':' :: chars value ++ fieldChars rest ++ ['\x7d']

/-- The further items of an array. -/
def itemChars : List Value → List Char
  | [] => []
  | item :: rest => ',' :: chars item ++ itemChars rest

/-- The further fields of an object. -/
def fieldChars : List (String × Value) → List Char
  | [] => []
  | (name, value) :: rest => ',' :: quoteChars name ++ ':' :: chars value ++ fieldChars rest

end

/-- The text of a value, as a string. -/
def render (v : Value) : String := String.ofList v.chars

@[simp] theorem toList_render (v : Value) : v.render.toList = v.chars := String.toList_ofList

end Value

end DataAccess
