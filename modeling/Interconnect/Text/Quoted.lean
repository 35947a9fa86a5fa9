import Interconnect.Text.Unprintable

/-!
# Quoted text in messages

A message shows a path or a string between double quotes, on one line: quotes, backslashes and the
commonest controls are escaped by a letter, and any other unprintable character by its code point.
-/

namespace Interconnect.Text

/-- A code point in lowercase hexadecimal, as in `\u{1b}`. -/
def codePointEscape (c : Char) : List Char :=
  ['\\', 'u', '{'] ++ Nat.toDigits 16 c.toNat ++ ['}']

def quoteChar (c : Char) : List Char :=
  if c = '"' then ['\\', '"']
  else if c = '\\' then ['\\', '\\']
  else if c = '\n' then ['\\', 'n']
  else if c = '\r' then ['\\', 'r']
  else if c = '\t' then ['\\', 't']
  else if c = '\x00' then ['\\', '0']
  else if isUnprintable c then codePointEscape c
  else [c]

def quoted (text : String) : String :=
  String.ofList ('"' :: text.toList.flatMap quoteChar ++ ['"'])

end Interconnect.Text
