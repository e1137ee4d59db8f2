import EnumGen.Document.Diagnostics

/-!
# A look-ahead of one token

A `Cursor` stands on one token of a text and remembers the first failure. After that failure it
is stuck: no operation moves it, and every match comes to nothing. `weight` bounds how often it
can still move, since a match that succeeds lowers it (`weight_take?_lt`).
-/

namespace EnumGen

/-- A place in a token stream: the token there, the text after it, the first failure met so far
and what has happened up to now. -/
structure Cursor where
  stream : TokenStream
  current : Token
  error : Option ParseError
  events : Array ParseEvent
  deriving DecidableEq, Repr

namespace Cursor

/-- The number of the line on which the current token ends. -/
def line (c : Cursor) : Nat :=
  c.stream.line

/-- A failure has been met. -/
def isBroken (c : Cursor) : Bool :=
  c.error.isSome

/-- Nothing is left to read. -/
def isDone (c : Cursor) : Bool :=
  c.current.isEof || c.isBroken

/-- Adds an event to those that have happened. -/
def note (c : Cursor) (e : ParseEvent) : Cursor :=
  { c with events := c.events.push e }

/-- Remembers a failure unless an earlier one is known. -/
def latch (c : Cursor) (e : ParseError) : Cursor :=
  if c.isBroken then c else { c.note (.failed e) with error := some e }

/-- Fails on the current line. -/
def fail (c : Cursor) (message : String) : Cursor :=
  c.latch (.misplaced c.line message)

/-- Goes on to the next token. -/
def advance (c : Cursor) : Cursor :=
  if c.isBroken then c
  else
    match c.stream.pull with
    | (.ok t, s) => { c with stream := s, current := t }.note (.pulled s.line t)
    | (.error e, s) => { c with stream := s, current := .eof }.latch (.ofLexError e)

/-- The cursor on the first token of a stream. -/
def ofStream (s : TokenStream) : Cursor :=
  advance ⟨s, .eof, none, #[]⟩

/-- The cursor on the first token of a text. -/
def ofSource (source : String) : Cursor :=
  ofStream (.ofSource source)

/-- Consumes a token of the given kind and gives its lexeme. -/
def take? (c : Cursor) (kind : TokenKind) : Option String × Cursor :=
  if c.isBroken || c.current.kind != kind then (none, c) else (some c.current.lexeme, c.advance)

/-- Consumes a token of one of the given kinds and gives its kind. -/
def takeAny? (c : Cursor) (kinds : List TokenKind) : Option TokenKind × Cursor :=
  if c.isBroken || !kinds.contains c.current.kind then (none, c)
  else (some c.current.kind, c.advance)

/-- The current token as a diagnostic calls it. -/
def found (c : Cursor) : String :=
  if c.current.isEof then c.current.kind.describe
  else c.current.kind.describe ++ " " ++ Text.quote c.current.lexeme

/-- Fails because something else should stand here. -/
def failExpecting (c : Cursor) (what : String) : Cursor :=
  c.fail ("expected " ++ what ++ ", got " ++ c.found)

/-- Consumes a token of the given kind, and fails if another one stands here. -/
def require? (c : Cursor) (kind : TokenKind) : Option String × Cursor :=
  match c.take? kind with
  | (some lexeme, c) => (some lexeme, c)
  | (none, c) => (none, c.failExpecting kind.describe)

/-- A value, unless a failure has been met. -/
def finish {α : Type} (c : Cursor) (value : α) : Except ParseError α :=
  match c.error with
  | some e => .error e
  | none => .ok value

/-! ## Progress -/

/-- How often the cursor can still move, at most. -/
def weight (c : Cursor) : Nat :=
  if c.isBroken then 0 else c.stream.rest.length + (if c.current.isEof then 1 else 2)

theorem weight_of_isBroken {c : Cursor} (h : c.isBroken) : c.weight = 0 := by
  simp [weight, h]

theorem weight_pos {c : Cursor} (h : ¬c.isBroken) : 0 < c.weight := by
  grind [weight]

@[simp] theorem weight_note (c : Cursor) (e : ParseEvent) : (c.note e).weight = c.weight := rfl

theorem isBroken_latch (c : Cursor) (e : ParseError) : (c.latch e).isBroken := by
  unfold latch
  split
  · assumption
  · rfl

@[simp] theorem weight_latch (c : Cursor) (e : ParseError) : (c.latch e).weight = 0 :=
  weight_of_isBroken (isBroken_latch c e)

@[simp] theorem weight_failExpecting (c : Cursor) (what : String) :
    (c.failExpecting what).weight = 0 :=
  weight_latch ..

theorem length_lt_of_pull {s s' : TokenStream} {t : Token} (h : s.pull = (.ok t, s')) :
    s'.rest.length < s.rest.length ∨ t = .eof ∧ s'.rest = [] := by
  unfold TokenStream.pull at h
  split at h
  · rename_i hs
    cases h
    exact .inl (length_lt_of_scan hs)
  · cases h
    exact .inr ⟨rfl, rfl⟩
  · cases h

theorem weight_advance_le (c : Cursor) : c.advance.weight ≤ c.weight := by
  unfold advance
  split
  · exact Nat.le_refl _
  · rename_i hb
    split
    · rename_i t s hp
      have := length_lt_of_pull hp
      grind [weight, note, isBroken, Token.isEof, Token.eof]
    · simp

theorem weight_advance_lt {c : Cursor} (hb : ¬c.isBroken) (he : ¬c.current.isEof) :
    c.advance.weight < c.weight := by
  have := weight_pos hb
  unfold advance
  split
  · contradiction
  · split
    · rename_i t s hp
      have := length_lt_of_pull hp
      grind [weight, note, isBroken, Token.isEof, Token.eof]
    · simpa using this

theorem weight_take?_le (c : Cursor) (kind : TokenKind) : (c.take? kind).2.weight ≤ c.weight := by
  unfold take?
  split
  · exact Nat.le_refl _
  · exact weight_advance_le c

theorem weight_take?_lt {c c' : Cursor} {kind : TokenKind} {lexeme : String}
    (hk : kind ≠ .eof) (h : c.take? kind = (some lexeme, c')) : c'.weight < c.weight := by
  unfold take? at h
  split at h
  · cases h
  · cases h
    apply weight_advance_lt <;> grind [Token.isEof]

theorem weight_takeAny?_le (c : Cursor) (kinds : List TokenKind) :
    (c.takeAny? kinds).2.weight ≤ c.weight := by
  unfold takeAny?
  split
  · exact Nat.le_refl _
  · exact weight_advance_le c

theorem weight_require?_le (c : Cursor) (kind : TokenKind) :
    (c.require? kind).2.weight ≤ c.weight := by
  unfold require?
  split
  · rename_i h
    simpa [h] using weight_take?_le c kind
  · simp

theorem weight_require?_lt {c : Cursor} {kind : TokenKind} (hk : kind ≠ .eof) (hb : ¬c.isBroken) :
    (c.require? kind).2.weight < c.weight := by
  unfold require?
  split
  · rename_i h
    exact weight_take?_lt hk h
  · simpa using weight_pos hb

end Cursor

end EnumGen
