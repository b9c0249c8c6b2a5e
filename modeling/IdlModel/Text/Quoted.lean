import IdlModel.Text.Letter

/-!
# Quoted text

A text shown between double quotes, such that every character of it can be
read on one line.

* The quote and the backslash get a backslash in front.
* Tab, line feed, carriage return and NUL are written `\t`, `\n`, `\r`, `\0`.
* A character that is not printable, and one that would attach to the
  character before it, is written `\u` with its code point in braces.
* Everything else stands for itself.

File names are shown in the same way, and there the apostrophe gets a backslash
too.
-/

namespace IdlModel.Text

/-- The lowercase hexadecimal digits of a number. -/
def hexText (n : Nat) : List Char := Nat.toDigits 16 n

/-- What stands for a character between quotes.  `apostrophe` says whether the
apostrophe is escaped. -/
def escaped (apostrophe : Bool) (c : Char) : List Char :=
  if c = '"' then ['\\', '"']
  else if c = '\\' then ['\\', '\\']
  else if c = '\t' then ['\\', 't']
  else if c = '\n' then ['\\', 'n']
  else if c = '\r' then ['\\', 'r']
  else if c.toNat = 0 then ['\\', '0']
  else if c = '\'' then if apostrophe then ['\\', '\''] else ['\'']
  else if !isExtending c && isPrintable c then [c]
  else '\\' :: 'u' :: '\x7b' :: hexText c.toNat ++ ['\x7d']

/-- A text between quotes. -/
def quoted (s : String) : String :=
  String.ofList ('"' :: s.toList.flatMap (escaped false) ++ ['"'])

/-- A file name between quotes. -/
def quotedPath (s : String) : String :=
  String.ofList ('"' :: s.toList.flatMap (escaped true) ++ ['"'])

example : quoted "a\"b\\\n" = "\"a\\\"b\\\\\\n\"" := by decide
example : quotedPath "it's" = "\"it\\'s\"" := by decide

end IdlModel.Text
