import HttpServer.Text.Unseen

/-!
# Quoted text

A text between quotes, written so that every character of it can be told: the quote, the backslash
and four control characters by a letter behind a backslash, all else that cannot be seen by its
number in braces.
-/

namespace HttpServer

namespace Quoted

/-- How a character is written inside quotes. -/
def escape (c : Char) : List Char :=
  if c = '"' then ['\\', '"']
  else if c = '\\' then ['\\', '\\']
  else if c = '\n' then ['\\', 'n']
  else if c = '\r' then ['\\', 'r']
  else if c = '\t' then ['\\', 't']
  else if c.toNat = 0 then ['\\', '0']
  else if isUnseen c then ['\\', 'u', '\x7b'] ++ Nat.toDigits 16 c.toNat ++ ['\x7d']
  else [c]

/-- A text between quotes. -/
def quote (s : String) : String :=
  String.ofList (['"'] ++ s.toList.flatMap escape ++ ['"'])

end Quoted

end HttpServer
