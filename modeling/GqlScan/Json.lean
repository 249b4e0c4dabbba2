import GqlScan.Text.Basic

/-!
# JSON

Values and their text with an indentation of two spaces. Objects keep the order of their members,
empty arrays and objects stay on one line, and texts are written in ASCII: other characters as the
escapes of their 16-bit units.
-/

namespace GqlScan.Json

open Text

/-- A value. -/
inductive Value where
  | bool (b : Bool)
  | str (t : Text)
  | array (items : List Value)
  | object (members : List (Text × Value))
  deriving Inhabited, Repr

/-- The escape of a 16-bit unit. -/
def unitEscape (n : Nat) : Text := ['\\', 'u'] ++ hex 4 n

/-- A character inside quotation marks. -/
def escapeChar (c : Char) : Text :=
  if c = '"' ∨ c = '\\' then ['\\', c]
  else if c = '\n' then ['\\', 'n']
  else if c = '\r' then ['\\', 'r']
  else if c = '\t' then ['\\', 't']
  else if c = '\x08' then ['\\', 'b']
  else if c = '\x0C' then ['\\', 'f']
  else if 0x20 ≤ c.toNat ∧ c.toNat ≤ 0x7E then [c]
  else if c.toNat < 0x10000 then unitEscape c.toNat
  else
    unitEscape (0xD800 + (c.toNat - 0x10000) / 0x400)
      ++ unitEscape (0xDC00 + (c.toNat - 0x10000) % 0x400)

/-- A text between quotation marks. -/
def quoteText (t : Text) : Text := '"' :: t.flatMap escapeChar ++ ['"']

/-- A line break and an indentation. -/
def newLine (indent : Nat) : Text := '\n' :: List.replicate indent ' '

/-- Items between an opening and a closing mark, one on each line. -/
def enclose (opening closing : Char) (indent : Nat) (items : List Text) : Text :=
  if items.isEmpty then [opening, closing]
  else
    opening :: newLine (indent + 2) ++ join (',' :: newLine (indent + 2)) items ++ newLine indent
      ++ [closing]

mutual

/-- The text of a value that stands at an indentation. -/
def Value.render (indent : Nat) : Value → Text
  | .bool b => (if b then "true" else "false").toList
  | .str t => quoteText t
  | .array items => enclose '[' ']' indent (renderItems (indent + 2) items)
  | .object members => enclose '\x7b' '\x7d' indent (renderMembers (indent + 2) members)

/-- The texts of some values. -/
def renderItems (indent : Nat) : List Value → List Text
  | [] => []
  | v :: rest => v.render indent :: renderItems indent rest

/-- The texts of some members. -/
def renderMembers (indent : Nat) : List (Text × Value) → List Text
  | [] => []
  | (name, v) :: rest =>
    (quoteText name ++ [':', ' '] ++ v.render indent) :: renderMembers indent rest

end

end GqlScan.Json
