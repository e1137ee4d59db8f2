import EnumGen.Text.Quoted

/-!
# String literals of generated code

A text becomes an interpreted string literal of the generated language: quotes, backslashes and
control characters are escaped, every other character stands for itself.
-/

namespace EnumGen.Code

/-- The control characters: the first thirty-two code points, delete, and the thirty-two from
`0x80` on. -/
def isControl (c : Char) : Bool :=
  c.toNat < 0x20 || 0x7f ≤ c.toNat && c.toNat < 0xa0

/-- Four hexadecimal digits, with zeros in front; a longer number keeps all of its digits. -/
def hex4 (n : Nat) : List Char :=
  let digits := Text.hexDigits n
  List.replicate (4 - digits.length) '0' ++ digits

/-- One character of a literal. -/
def literalChar (c : Char) : List Char :=
  if c = '"' then ['\\', '"']
  else if c = '\\' then ['\\', '\\']
  else if c = '\n' then ['\\', 'n']
  else if c = '\r' then ['\\', 'r']
  else if c = '\t' then ['\\', 't']
  else if isControl c then '\\' :: 'u' :: hex4 c.toNat
  else [c]

/-- The literal of a text, with its quotes. -/
def literalChars (s : List Char) : List Char :=
  '"' :: (s.flatMap literalChar ++ ['"'])

/-- The literal of a string, with its quotes. -/
def literal (s : String) : String :=
  String.ofList (literalChars s.toList)

end EnumGen.Code
