/-!
# Tokens

The lexical units of an enum definition file: words, of which fourteen are reserved, tags between
backticks, the punctuation of a definition, and any other single character. Each kind has the text
by which diagnostics call it and the label under which the log shows it.
-/

namespace EnumGen

/-- The integer types an enum may be based on. -/
inductive IntType
  | byte | int | uint | int8 | uint8 | int16 | uint16 | int32 | uint32 | int64 | uint64
  deriving DecidableEq, Repr

namespace IntType

/-- Every integer type, in the order of their widths. -/
def all : List IntType :=
  [byte, int, uint, int8, uint8, int16, uint16, int32, uint32, int64, uint64]

/-- The reserved word for the type, which is also its name in generated code. -/
def name : IntType → String
  | byte => "byte"
  | int => "int"
  | uint => "uint"
  | int8 => "int8"
  | uint8 => "uint8"
  | int16 => "int16"
  | uint16 => "uint16"
  | int32 => "int32"
  | uint32 => "uint32"
  | int64 => "int64"
  | uint64 => "uint64"

/-- The label under which the log shows the type. -/
def label : IntType → String
  | byte => "Byte"
  | int => "Int"
  | uint => "Uint"
  | int8 => "Int8"
  | uint8 => "Uint8"
  | int16 => "Int16"
  | uint16 => "Uint16"
  | int32 => "Int32"
  | uint32 => "Uint32"
  | int64 => "Int64"
  | uint64 => "Uint64"

theorem mem_all (t : IntType) : t ∈ all := by
  cases t <;> decide

end IntType

/-- The lexical category of a token. -/
inductive TokenKind
  /-- the end of the input -/
  | eof
  /-- a word that is not reserved -/
  | ident
  | eq
  | lbrace
  | rbrace
  /-- text between backticks -/
  | tag
  | package
  | type
  | enum
  | int (t : IntType)
  /-- a single character with no other meaning -/
  | other
  deriving DecidableEq, Repr

namespace TokenKind

/-- The integer type keywords, in the order of `IntType.all`. -/
def ints : List TokenKind :=
  IntType.all.map int

/-- The name of the kind in diagnostics. -/
def describe : TokenKind → String
  | eof => "end of input"
  | ident => "identifier"
  | eq => "'='"
  | lbrace => "'\x7b'"
  | rbrace => "'\x7d'"
  | tag => "tag"
  | package => "'package'"
  | type => "'type'"
  | enum => "'enum'"
  | int t => "'" ++ t.name ++ "'"
  | other => "character"

/-- The name of the kind in the log. -/
def label : TokenKind → String
  | eof => "Eof"
  | ident => "Ident"
  | eq => "Eq"
  | lbrace => "LBrace"
  | rbrace => "RBrace"
  | tag => "Tag"
  | package => "Package"
  | type => "Type"
  | enum => "Enum"
  | int t => "IntType(" ++ t.label ++ ")"
  | other => "Other"

/-- The reserved words with their kinds. -/
def reserved : List (String × TokenKind) :=
  [("package", package), ("type", type), ("enum", enum)] ++
    IntType.all.map fun t => (t.name, int t)

/-- The kind of a reserved word. -/
def ofWord? (word : String) : Option TokenKind :=
  reserved.lookup word

end TokenKind

/-- A classified lexical unit. The lexeme of a tag is the text between its backticks; the end of
the input has none. -/
structure Token where
  kind : TokenKind
  lexeme : String
  deriving DecidableEq, Repr

namespace Token

/-- The token that stands for the end of the input. -/
def eof : Token := ⟨.eof, ""⟩

/-- The end of the input is reached. -/
def isEof (t : Token) : Bool :=
  t.kind = .eof

/-- A whole word, reserved or not. -/
def ofWord (word : List Char) : Token :=
  ⟨(TokenKind.ofWord? (String.ofList word)).getD .ident, String.ofList word⟩

/-- A character that is a token of its own. -/
def ofChar (c : Char) : Token :=
  let kind : TokenKind :=
    if c = '=' then .eq
    else if c = '\x7b' then .lbrace
    else if c = '\x7d' then .rbrace
    else .other
  ⟨kind, String.singleton c⟩

end Token

end EnumGen
