import EnumGen.Text.Hidden

/-!
# Quoted text in diagnostics

Text taken from a file is shown between double quotes, with everything that could be misread
written as an escape, so a message stays on one line whatever the file holds.
-/

namespace EnumGen.Text

/-- The hexadecimal digits of a number, lower case and without leading zeros. -/
def hexDigits (n : Nat) : List Char :=
  Nat.toDigits 16 n

/-- A character that a diagnostic writes by its code point. -/
def isHidden (c : Char) : Bool :=
  unprintable.holds c.toNat || extending.holds c.toNat

/-- One character inside the quotes. -/
def quoteChar (c : Char) : List Char :=
  if c = '"' then ['\\', '"']
  else if c = '\\' then ['\\', '\\']
  else if c = '\n' then ['\\', 'n']
  else if c = '\r' then ['\\', 'r']
  else if c = '\t' then ['\\', 't']
  else if c.toNat = 0 then ['\\', '0']
  else if isHidden c then ['\\', 'u', '\x7b'] ++ hexDigits c.toNat ++ ['\x7d']
  else [c]

/-- A text between double quotes. -/
def quoteChars (s : List Char) : List Char :=
  '"' :: (s.flatMap quoteChar ++ ['"'])

/-- A string between double quotes. -/
def quote (s : String) : String :=
  String.ofList (quoteChars s.toList)

end EnumGen.Text
