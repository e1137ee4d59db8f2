import EnumGen.Token.Scan

/-!
# A text as a stream of tokens

A `TokenStream` is the unread part of a text together with the number of the line it starts on.
It is read in two ways. `pull` gives a token at any time, and the end of the input again and again
once nothing is left. `next?` delivers the tokens alone, and nothing after the last one or after a
failure. `Lexed.ofSource` is the whole text at once.
-/

namespace EnumGen

/-- A text that does not divide into tokens. -/
inductive LexError
  /-- the input ended inside a comment or a tag -/
  | unexpectedEnd (line : Nat)
  deriving DecidableEq, Repr

namespace LexError

/-- The line on which the input ended. -/
def line : LexError → Nat
  | unexpectedEnd n => n

/-- The error in words. -/
def message : LexError → String
  | unexpectedEnd _ => "unexpected end of input"

end LexError

/-- A text that is read token by token. -/
structure TokenStream where
  rest : List Char
  line : Nat
  /-- `next?` has met the end of the input or a failure -/
  finished : Bool
  deriving DecidableEq, Repr

namespace TokenStream

/-- The stream at the start of a text. -/
def ofChars (source : List Char) : TokenStream :=
  ⟨source, 1, false⟩

/-- The stream at the start of a text. -/
def ofSource (source : String) : TokenStream :=
  ofChars source.toList

/-- The next token, or the end of the input. -/
def pull (s : TokenStream) : Except LexError Token × TokenStream :=
  match scan s.line s.rest with
  | .token t line rest => (.ok t, { s with rest, line })
  | .ended line => (.ok .eof, { s with rest := [], line })
  | .unclosed line => (.error (.unexpectedEnd line), { s with rest := [], line })

/-- The next token or failure, and nothing once the input has ended or failed. -/
def next? (s : TokenStream) : Option (Except LexError Token) × TokenStream :=
  if s.finished then (none, s)
  else
    match s.pull with
    | (.ok t, s) => if t.isEof then (none, { s with finished := true }) else (some (.ok t), s)
    | (.error e, s) => (some (.error e), { s with finished := true })

end TokenStream

/-- A text as its tokens, each with the line it ends on, the failure that cuts them short, if
there is one, and the number of the last line. -/
structure Lexed where
  tokens : List (Token × Nat)
  failure : Option LexError
  line : Nat
  deriving DecidableEq, Repr

namespace Lexed

/-- All tokens of a text that starts on the given line. -/
def ofChars (line : Nat) (source : List Char) : Lexed :=
  match _h : scan line source with
  | .token t line rest =>
    let later := ofChars line rest
    { later with tokens := (t, line) :: later.tokens }
  | .ended line => ⟨[], none, line⟩
  | .unclosed line => ⟨[], some (.unexpectedEnd line), line⟩
termination_by source.length
decreasing_by exact length_lt_of_scan ‹_›

/-- All tokens of a text. -/
def ofSource (source : String) : Lexed :=
  ofChars 1 source.toList

end Lexed

end EnumGen
