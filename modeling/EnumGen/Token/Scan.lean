import EnumGen.Token

/-!
# Reading one token from a text

A token is found by skipping the gap before it, which is made of blanks and comments, and reading
as many characters as belong to it. `skip` and `scan` return the line number reached together with
the text that remains. The main statements are that the remaining text is shorter after every
token (`length_lt_of_scan`) and that a gap moves the line number by its newlines (`line_of_skip`).
-/

namespace EnumGen

/-- The characters that separate tokens. -/
def isBlank (c : Char) : Bool :=
  c = ' ' || c = '\t' || c = '\n' || c = '\r'

/-- A letter of the ASCII alphabet or an underscore starts a word. -/
def isWordStart (c : Char) : Bool :=
  c.isAlpha || c = '_'

/-- Words go on with ASCII letters, digits and underscores. -/
def isWordChar (c : Char) : Bool :=
  isWordStart c || c.isDigit

/-- The character on both sides of a tag. -/
def backtick : Char := '\x60'

/-- The number of newlines in a text. -/
def newlines (s : List Char) : Nat :=
  s.count '\n'

/-- What the search for a token is inside of. -/
inductive Within
  | blanks
  /-- after a slash, which may open a comment -/
  | slash
  | lineComment
  | blockComment
  /-- in a block comment after a star, which may close it -/
  | star
  deriving DecidableEq, Repr

/-- Where the search for a token ends. -/
inductive Gap
  /-- before the first character of a token, or at the end of the input -/
  | before (line : Nat) (rest : List Char)
  /-- in a comment that the input does not close, or that it only half opens -/
  | unclosed (line : Nat)
  deriving DecidableEq, Repr

/-- Skips blanks and comments, counting lines. -/
def skip (line : Nat) (w : Within) (s : List Char) : Gap :=
  match s with
  | [] =>
    match w with
    | .blanks | .lineComment => .before line []
    | .slash | .blockComment | .star => .unclosed line
  | c :: r =>
    match w with
    | .blanks =>
      if c = '/' then skip line .slash r
      else if isBlank c then skip (line + newlines [c]) .blanks r
      else .before line (c :: r)
    | .slash =>
      if c = '/' then skip line .lineComment r
      else if c = '*' then skip line .blockComment r
      else .before line ('/' :: c :: r)
    | .lineComment =>
      if c = '\n' then skip (line + 1) .blanks r else skip line .lineComment r
    | .blockComment =>
      if c = '*' then skip line .star r else skip (line + newlines [c]) .blockComment r
    | .star =>
      if c = '/' then skip line .blanks r
      else if c = '*' then skip line .star r
      else skip (line + newlines [c]) .blockComment r

/-- The outcome of looking for a token. -/
inductive Scan
  /-- a token, the line it ends on and the text after it -/
  | token (t : Token) (line : Nat) (rest : List Char)
  /-- nothing but a gap was left -/
  | ended (line : Nat)
  /-- the input ended inside a comment or a tag -/
  | unclosed (line : Nat)
  deriving DecidableEq, Repr

/-- Reads the token that starts with the first character. -/
def readToken (line : Nat) : List Char → Scan
  | [] => .ended line
  | c :: r =>
    if isWordStart c then
      .token (Token.ofWord (c :: r.takeWhile isWordChar)) line (r.dropWhile isWordChar)
    else if c = backtick then
      match r.dropWhile (· != backtick) with
      | [] => .unclosed (line + newlines r)
      | _ :: rest =>
        let text := r.takeWhile (· != backtick)
        .token ⟨.tag, String.ofList text⟩ (line + newlines text) rest
    else .token (Token.ofChar c) line r

/-- Looks for the next token of a text. -/
def scan (line : Nat) (s : List Char) : Scan :=
  match skip line .blanks s with
  | .before line rest => readToken line rest
  | .unclosed line => .unclosed line

/-! ## What is left is shorter, and lines count newlines -/

@[simp] theorem newlines_nil : newlines [] = 0 := rfl

theorem newlines_cons (c : Char) (s : List Char) :
    newlines (c :: s) = newlines [c] + newlines s := by
  simp [newlines, List.count_cons, Nat.add_comm]

@[simp] theorem newlines_append (s t : List Char) :
    newlines (s ++ t) = newlines s + newlines t :=
  List.count_append

/-- The length of the text that a search starts from, with the slash it has passed. -/
def Within.pending : Within → List Char
  | .slash => ['/']
  | _ => []

theorem length_le_of_skip {line n : Nat} {w : Within} {s r : List Char}
    (h : skip line w s = .before n r) : r.length ≤ w.pending.length + s.length := by
  fun_induction skip line w s <;> simp_all [Within.pending] <;> grind

theorem line_of_skip {line n : Nat} {w : Within} {s r : List Char}
    (h : skip line w s = .before n r) : n + newlines r = line + newlines s := by
  fun_induction skip line w s <;> simp_all [newlines, List.count_cons] <;> grind

theorem line_of_skip_unclosed {line n : Nat} {w : Within} {s : List Char}
    (h : skip line w s = .unclosed n) : n = line + newlines s := by
  fun_induction skip line w s <;> simp_all [newlines, List.count_cons] <;> grind

theorem length_lt_of_readToken {line n : Nat} {s r : List Char} {t : Token}
    (h : readToken line s = .token t n r) : r.length < s.length := by
  cases s with
  | nil => simp [readToken] at h
  | cons c s =>
    have shorter (p : Char → Bool) : (s.dropWhile p).length ≤ s.length :=
      (List.dropWhile_suffix p).length_le
    grind [readToken]

theorem length_lt_of_scan {line n : Nat} {s r : List Char} {t : Token}
    (h : scan line s = .token t n r) : r.length < s.length := by
  unfold scan at h
  split at h
  · rename_i hs
    have token := length_lt_of_readToken h
    have gap := length_le_of_skip hs
    simp only [Within.pending, List.length_nil, Nat.zero_add] at gap
    omega
  · simp at h

end EnumGen
