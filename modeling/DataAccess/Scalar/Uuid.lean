import DataAccess.Text.Pieces
import DataAccess.Value.Basic

/-!
# Universally unique identifiers

An identifier of 128 bits. It may be written as thirty-two hexadecimal digits, or in five groups
with hyphens, the latter also in braces or after `urn:uuid:`. It is always shown in groups, in
lower case.

- `Uuid`, `Uuid.ofText?`: the identifier, and its reader.
- `Uuid.chars`, `Uuid.toValue`: the text, and the value to compare with.
-/

namespace DataAccess

/-- An identifier: thirty-two lower-case hexadecimal digits. -/
structure Uuid where
  digits : List Char
  deriving DecidableEq

namespace Uuid

/-- The lengths of the groups. -/
def groupLengths : List Nat := [8, 4, 4, 4, 12]

/-- Whether a character is a hexadecimal digit in lower case. -/
def isHex (c : Char) : Bool := c.isDigit || ('a' ≤ c && c ≤ 'f')

/-- Cuts a list into groups of the given lengths. -/
def cut : List Nat → List Char → List (List Char)
  | [], _ => []
  | n :: rest, cs => cs.take n :: cut rest (cs.drop n)

/-- Reads thirty-two digits. -/
def ofDigits? (cs : List Char) : Option Uuid :=
  if cs.length = 32 ∧ cs.all isHex then some ⟨cs⟩ else none

/-- Reads five groups with hyphens between them. -/
def ofGroups? (cs : List Char) : Option Uuid :=
  let groups := Text.split '-' cs
  if groups.map List.length = groupLengths then ofDigits? groups.flatten else none

/-- Reads an identifier, in any case of letters, those of the word before the groups included. -/
def ofText? (text : String) : Option Uuid :=
  let cs := text.toList
  let lower := cs.map Char.toLower
  if cs.length = 32 then ofDigits? lower
  else if cs.length = 36 then ofGroups? lower
  else if cs.length = 38 ∧ cs.head? = some '\x7b' ∧ cs.getLast? = some '\x7d' then
    ofGroups? (lower.drop 1).dropLast
  else if cs.length = 45 ∧ lower.take 9 = "urn:uuid:".toList then ofGroups? (lower.drop 9)
  else none

/-- The text of an identifier. -/
def chars (u : Uuid) : List Char := Text.join ['-'] (cut groupLengths u.digits)

/-- The identifier as a value to compare with. -/
def toValue (u : Uuid) : Value := .string (String.ofList u.chars)

end Uuid

end DataAccess
