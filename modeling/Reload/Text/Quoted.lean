import Reload.Text.Unprintable
import Reload.Text.ExtendingMark

/-!
Text in double quotes, as messages and descriptions show it. A character that has no printed
form of its own, or that would melt into the one before it, is written by its code point, so
the quoted text shows where each character is.
-/

namespace Reload.Text

/-- A character by its code point, in lower-case hexadecimal without leading zeros. -/
def codePointEscape (c : Char) : List Char :=
  ['\\', 'u', '{'] ++ Nat.toDigits 16 c.toNat ++ ['}']

/-- The written form of one character inside the quotes. -/
def escape (c : Char) : List Char :=
  if c = Char.ofNat 0 then ['\\', '0']
  else if c = '\t' then ['\\', 't']
  else if c = '\r' then ['\\', 'r']
  else if c = '\n' then ['\\', 'n']
  else if c = '"' then ['\\', '"']
  else if c = '\\' then ['\\', '\\']
  else if isUnprintable c || isExtendingMark c then codePointEscape c
  else [c]

/-- A text in double quotes, each of its characters in its written form. -/
def quoted (text : String) : String :=
  String.ofList ('"' :: text.toList.flatMap escape ++ ['"'])

end Reload.Text
