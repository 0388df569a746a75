import QueryTidy.Text.Basic

/-!
Values of the JSON data format, as far as reports need them, and their indented text.
-/

set_option autoImplicit false
set_option relaxedAutoImplicit false

namespace QueryTidy

/-- A value made of strings, arrays and objects; the members of an object are in order. -/
inductive Json
  | string (t : Text)
  | array (items : List Json)
  | object (members : List (Text × Json))

namespace Json

def hexDigit (n : Nat) : Char :=
  if n < 10 then Char.ofNat (48 + n) else Char.ofNat (87 + n)

/-- A character inside a string: quotes, backslashes and control characters are escaped. -/
def escape (c : Char) : Text :=
  if c = '"' then ['\\', '"']
  else if c = '\\' then ['\\', '\\']
  else if c = '\x08' then ['\\', 'b']
  else if c = '\t' then ['\\', 't']
  else if c = '\n' then ['\\', 'n']
  else if c = '\x0c' then ['\\', 'f']
  else if c = '\r' then ['\\', 'r']
  else if c.toNat < 0x20 then
    ['\\', 'u', '0', '0', hexDigit (c.toNat / 16), hexDigit (c.toNat % 16)]
  else [c]

def quote (t : Text) : Text :=
  '"' :: t.flatMap escape ++ ['"']

def newLine (level : Nat) : Text :=
  '\n' :: List.replicate (2 * level) ' '

mutual

/-- The text of a value that stands at a level of indentation. -/
def write (level : Nat) : Json → Text
  | .string t => quote t
  | .array [] => ['[', ']']
  | .array (item :: items) =>
    '[' :: newLine (level + 1) ++ write (level + 1) item ++ writeItems (level + 1) items ++
      newLine level ++ [']']
  | .object [] => ['\x7b', '\x7d']
  | .object (member :: members) =>
    '\x7b' :: newLine (level + 1) ++ writeMember (level + 1) member ++
      writeMembers (level + 1) members ++ newLine level ++ ['\x7d']

def writeItems (level : Nat) : List Json → Text
  | [] => []
  | item :: items => ',' :: newLine level ++ write level item ++ writeItems level items

def writeMember (level : Nat) : Text × Json → Text
  | (name, value) => quote name ++ ": ".toList ++ write level value

def writeMembers (level : Nat) : List (Text × Json) → Text
  | [] => []
  | member :: members =>
    ',' :: newLine level ++ writeMember level member ++ writeMembers level members

end

def pretty (v : Json) : Text :=
  write 0 v

end Json

end QueryTidy
