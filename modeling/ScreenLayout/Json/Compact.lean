import ScreenLayout.Json.Basic
import ScreenLayout.Number.Written

/-!
# Json/Compact — JSON text without spaces

`Json.compact` writes a value on one line: no spaces, fields in their order, integers in decimal and
doubles in the data form.  Strings escape quotes, backslashes and control characters only.

* `Json.compact` — the text of a value.
-/

namespace ScreenLayout

/-- An integer in decimal. -/
def intText (n : Int) : List Char := signText (n < 0) ++ Nat.toDigits 10 n.natAbs

/-- The text of a number. -/
def Number.compact : Number → List Char
  | .int n _ => intText n
  | .double x => x.data

namespace Json

def hexDigit (n : Nat) : Char := Nat.digitChar (n % 16)

/-- A character inside a JSON string. -/
def escapeChar (c : Char) : List Char :=
  if c = '"' then ['\\', '"']
  else if c = '\\' then ['\\', '\\']
  else if c = '\n' then ['\\', 'n']
  else if c = '\r' then ['\\', 'r']
  else if c = '\t' then ['\\', 't']
  else if c = '\x08' then ['\\', 'b']
  else if c = '\x0c' then ['\\', 'f']
  else if c.toNat < 0x20 then
    ['\\', 'u', '0', '0', hexDigit (c.toNat / 16), hexDigit c.toNat]
  else [c]

/-- A JSON string with its quotes. -/
def quoted (s : String) : List Char := '"' :: (s.toList.flatMap escapeChar ++ ['"'])

mutual

/-- **The compact text of a value.** -/
def compact : Json → List Char
  | .null => "null".toList
  | .bool true => "true".toList
  | .bool false => "false".toList
  | .number n => n.compact
  | .string s => quoted s
  | .array items => '[' :: (compactItems items ++ [']'])
  | .object fields => '{' :: (compactFields fields ++ ['}'])

/-- The items of an array with commas between them. -/
def compactItems : List Json → List Char
  | [] => []
  | [v] => compact v
  | v :: vs => compact v ++ ',' :: compactItems vs

/-- The fields of an object with commas between them. -/
def compactFields : List (String × Json) → List Char
  | [] => []
  | [(k, v)] => quoted k ++ ':' :: compact v
  | (k, v) :: fields => quoted k ++ ':' :: (compact v ++ ',' :: compactFields fields)

end

/-- The compact text of a value, as a string. -/
def compactString (v : Json) : String := String.ofList v.compact

end Json

end ScreenLayout
