import HttpServer.Json.Binary64
import HttpServer.Table
import HttpServer.Text.Utf8

/-!
# JSON values and their text

A value is a tree. Its strings are UTF-8 byte strings, its numbers whole numbers or doubles, and an
object is a list of members. The members of a document that was read are a table: they stand in the
order of their names, and of two equal names the later replaced the earlier.

`render` writes a value without blanks, and `pretty` one member a line, indented by two spaces a
level. Both write members in the order in which the object holds them.
-/

namespace HttpServer

namespace Json

/-- A number: a whole one, or a double. -/
inductive Number where
  | whole (n : Int)
  | float (x : Binary64)
deriving DecidableEq, Repr

/-- The decimal text of a whole number. -/
def wholeText (n : Int) : Bytes :=
  if n < 0 then Bytes.ascii "-" ++ Bytes.decimal n.natAbs else Bytes.decimal n.natAbs

/-- The text of a number. -/
def Number.render : Number → Bytes
  | .whole n => wholeText n
  | .float x => x.render

end Json

/-- A JSON document as a tree. -/
inductive Json where
  | null
  | bool (b : Bool)
  | number (n : Json.Number)
  | text (s : Bytes)
  | list (items : List Json)
  | object (members : List (Bytes × Json))
deriving Repr

namespace Json

/-- The value of a member of an object. -/
def field? (key : Bytes) : Json → Option Json
  | .object members => Table.find? key members
  | _ => none

/-- The two digits of a byte in base sixteen, in small letters. -/
def hexByte (b : UInt8) : Bytes :=
  Bytes.ascii (String.ofList [Nat.digitChar (b.toNat / 16), Nat.digitChar (b.toNat % 16)])

/-- How a byte is written inside a string. -/
def escape (b : UInt8) : Bytes :=
  if b = 34 then Bytes.ascii "\\\""
  else if b = 92 then Bytes.ascii "\\\\"
  else if 32 ≤ b then [b]
  else if b = 8 then Bytes.ascii "\\b"
  else if b = 9 then Bytes.ascii "\\t"
  else if b = 10 then Bytes.ascii "\\n"
  else if b = 12 then Bytes.ascii "\\f"
  else if b = 13 then Bytes.ascii "\\r"
  else Bytes.ascii "\\u00" ++ hexByte b

/-- A string between quotes. -/
def quote (s : Bytes) : Bytes :=
  Bytes.ascii "\"" ++ s.flatMap escape ++ Bytes.ascii "\""

/-- The text of a truth value. -/
def boolText (b : Bool) : Bytes :=
  Bytes.ascii (if b then "true" else "false")

mutual

/-- A value without blanks. -/
def render : Json → Bytes
  | .null => Bytes.ascii "null"
  | .bool b => boolText b
  | .number n => n.render
  | .text s => quote s
  | .list items => Bytes.ascii "[" ++ renderItems items ++ Bytes.ascii "]"
  | .object members => Bytes.ascii "\x7b" ++ renderMembers members ++ Bytes.ascii "\x7d"

/-- The items of a list, with commas between. -/
def renderItems : List Json → Bytes
  | [] => []
  | [v] => render v
  | v :: r => render v ++ Bytes.ascii "," ++ renderItems r

/-- The members of an object, with commas between. -/
def renderMembers : List (Bytes × Json) → Bytes
  | [] => []
  | [(k, v)] => quote k ++ Bytes.ascii ":" ++ render v
  | (k, v) :: r => quote k ++ Bytes.ascii ":" ++ render v ++ Bytes.ascii "," ++ renderMembers r

end

/-- A new line, indented to a level. -/
def newline (level : Nat) : Bytes :=
  Bytes.lf :: List.replicate (2 * level) Bytes.space

mutual

/-- A value over several lines, its own line at `level`. -/
def prettyAt (level : Nat) : Json → Bytes
  | .null => Bytes.ascii "null"
  | .bool b => boolText b
  | .number n => n.render
  | .text s => quote s
  | .list [] => Bytes.ascii "[]"
  | .list (v :: r) =>
    Bytes.ascii "[" ++ prettyItems (level + 1) (v :: r) ++ newline level ++ Bytes.ascii "]"
  | .object [] => Bytes.ascii "\x7b\x7d"
  | .object (m :: r) =>
    Bytes.ascii "\x7b" ++ prettyMembers (level + 1) (m :: r) ++ newline level ++
      Bytes.ascii "\x7d"

/-- Items, each on a line of its own. -/
def prettyItems (level : Nat) : List Json → Bytes
  | [] => []
  | [v] => newline level ++ prettyAt level v
  | v :: r => newline level ++ prettyAt level v ++ Bytes.ascii "," ++ prettyItems level r

/-- Members, each on a line of its own. -/
def prettyMembers (level : Nat) : List (Bytes × Json) → Bytes
  | [] => []
  | [(k, v)] => newline level ++ quote k ++ Bytes.ascii ": " ++ prettyAt level v
  | (k, v) :: r =>
    newline level ++ quote k ++ Bytes.ascii ": " ++ prettyAt level v ++ Bytes.ascii "," ++
      prettyMembers level r

end

/-- A value over several lines. -/
def pretty (v : Json) : Bytes :=
  prettyAt 0 v

end Json

end HttpServer
