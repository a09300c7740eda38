import Relay.Json.Value
import Relay.Number.Layout

/-!
# Writing JSON texts

Values are written without blanks. Control characters, quotes and backslashes are escaped, all other
characters stand for themselves.
-/

namespace Relay.Json

/-- Floating-point numbers stand with the point at its place from `1e-5` up to below `1e16`, always
with a fraction. -/
def Number.layout : Shortest.Layout := ⟨.even, some (-5), some 16, true⟩

namespace Value

/-- A lower-case hexadecimal digit. -/
def hexChar (n : Nat) : Char := if n < 10 then Char.ofNat (48 + n) else Char.ofNat (87 + n)

/-- A character as written inside a string. -/
def escape (c : Char) : List Char :=
  if c == '"' then ['\\', '"']
  else if c == '\\' then ['\\', '\\']
  else if c == '\x08' then ['\\', 'b']
  else if c == '\x0c' then ['\\', 'f']
  else if c == '\n' then ['\\', 'n']
  else if c == '\r' then ['\\', 'r']
  else if c == '\t' then ['\\', 't']
  else if c.toNat < 0x20 then
    ['\\', 'u', '0', '0', hexChar (c.toNat / 16), hexChar (c.toNat % 16)]
  else [c]

/-- A string in quotes. -/
def quote (s : String) : String :=
  "\"" ++ String.ofList (s.toList.flatMap escape) ++ "\""

/-- The text of a number. -/
def writeNumber : Number → String
  | .int i => toString i
  | .float d => Number.layout.write d

mutual

/-- The text of a value. -/
def write : Value → String
  | .null => "null"
  | .bool true => "true"
  | .bool false => "false"
  | .number n => writeNumber n
  | .text s => quote s
  | .list items => "[" ++ writeItems items ++ "]"
  | .object ms => "\x7b" ++ writeMembers ms ++ "\x7d"

/-- The items of an array, with commas between them. -/
def writeItems : List Value → String
  | [] => ""
  | [v] => write v
  | v :: vs => write v ++ "," ++ writeItems vs

/-- The members of an object, with commas between them. -/
def writeMembers : List (String × Value) → String
  | [] => ""
  | [(k, v)] => quote k ++ ":" ++ write v
  | (k, v) :: ms => quote k ++ ":" ++ write v ++ "," ++ writeMembers ms

end

end Value

end Relay.Json
