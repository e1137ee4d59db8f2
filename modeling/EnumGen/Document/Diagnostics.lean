import EnumGen.Text.Quoted
import EnumGen.Token.Stream

/-!
# What is reported about a definition file

A file that is not a document fails with one `ParseError`. Whatever happens, reading it leaves a
trail of `ParseEvent`s: each token as it is read, the first failure, and each enum type as it is
closed.
-/

namespace EnumGen

/-- Why a text is not a document. -/
inductive ParseError
  /-- the input ended inside a comment or a tag -/
  | unexpectedEnd (line : Nat)
  /-- a token stands where the grammar does not allow it -/
  | misplaced (line : Nat) (message : String)
  deriving DecidableEq, Repr

namespace ParseError

/-- A text that does not divide into tokens is not a document. -/
def ofLexError : LexError → ParseError
  | .unexpectedEnd line => .unexpectedEnd line

/-- The line on which the failure was noticed. -/
def line : ParseError → Nat
  | unexpectedEnd n => n
  | misplaced n _ => n

/-- The error in words, after its line. -/
def message : ParseError → String
  | unexpectedEnd n => toString n ++ ": unexpected end of input"
  | misplaced n text => toString n ++ ": " ++ text

end ParseError

/-- One thing that happens while a definition file is read. -/
inductive ParseEvent
  /-- a token was read, which ends on the line -/
  | pulled (line : Nat) (token : Token)
  /-- the first failure was met -/
  | failed (error : ParseError)
  /-- the closing brace of an enum type was read -/
  | closed (name : String) (members : Nat)
  deriving DecidableEq, Repr

namespace ParseEvent

/-- The event in words. -/
def message : ParseEvent → String
  | pulled n t => "line " ++ toString n ++ ": " ++ t.kind.label ++ " " ++ Text.quote t.lexeme
  | failed e => "parse failed: " ++ e.message
  | closed name members => "parsed enum " ++ name ++ " (" ++ toString members ++ " enumerators)"

end ParseEvent

end EnumGen
