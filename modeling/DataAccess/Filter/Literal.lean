import DataAccess.Text.Pieces
import DataAccess.Value.Text

/-!
# Literals and paths in a query

The values and paths that the text of a query holds. A text literal stands between apostrophes
and writes an apostrophe twice; arrays and objects are written as the text literal of their text.

- `Value.literal`: a value as it stands in a query.
- `pathChars`: a path as it stands in a query, with slashes for points.
-/

namespace DataAccess

/-- A text between apostrophes, each apostrophe in it written twice. -/
def apostrophed (cs : List Char) : List Char :=
  '\'' :: Text.replace '\'' ['\'', '\''] cs ++ ['\'']

/-- A path as it stands in a query. -/
def pathChars (path : String) : List Char := Text.replace '.' ['/'] path.toList

namespace Value

/-- A value as it stands in a query, as characters. -/
def literalChars : Value → List Char
  | null => ['n', 'u', 'l', 'l']
  | bool true => ['t', 'r', 'u', 'e']
  | bool false => ['f', 'a', 'l', 's', 'e']
  | number n => n.chars
  | string s => apostrophed s.toList
  | array items => apostrophed (chars (array items))
  | object fields => apostrophed (chars (object fields))

/-- A value as it stands in a query. -/
def literal (v : Value) : String := String.ofList v.literalChars

end Value

end DataAccess
