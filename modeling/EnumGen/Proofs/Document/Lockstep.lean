import EnumGen.Proofs.Document.Misfit
import EnumGen.Proofs.Document.Steps

/-!
# A cursor is a bookmark in the whole text

A cursor reads its text token by token and knows nothing of what is behind the current one. A caller
cannot tell it from a `Bookmark` in a text that has been read as a whole: the number of a token, and
a slot for the first failure. To go on, the bookmark moves to the next number, and takes up the
failure that cuts the text short if it comes upon that; behind the last token it stays.

`Keeps` relates a cursor to its bookmark. Every call gives the same reply on both sides and keeps
them related (`Keeps.step`), so whole runs of calls cannot be told apart (`trace_ofSource`).
-/

namespace EnumGen

open Grammar

/-! ## What a caller gets to see -/

/-- What a call gives back. -/
inductive Reply
  /-- nothing -/
  | done
  | lexeme (text : Option String)
  | kind (kind : Option TokenKind)
  deriving DecidableEq, Repr

/-- What can be seen of a cursor between two calls. -/
structure View where
  current : Token
  line : Nat
  isBroken : Bool
  isDone : Bool
  error : Option ParseError
  deriving DecidableEq, Repr

namespace Cursor

def view (c : Cursor) : View :=
  ⟨c.current, c.line, c.isBroken, c.isDone, c.error⟩

/-- What one call gives back. -/
def reply (c : Cursor) : Step → Reply
  | .advance | .fail _ | .latch _ => .done
  | .take kind => .lexeme (c.take? kind).1
  | .require kind => .lexeme (c.require? kind).1
  | .takeAny kinds => .kind (c.takeAny? kinds).1

/-- What calls one after the other give back, each with what can be seen after it. -/
def trace (c : Cursor) : List Step → List (Reply × View)
  | [] => []
  | step :: steps => (c.reply step, (c.after step).view) :: (c.after step).trace steps

end Cursor

/-! ## Bookmarks in a text that has been read -/

/-- The number of a token in a text, and the first failure met so far. -/
structure Bookmark where
  index : Nat
  error : Option ParseError
  deriving DecidableEq, Repr

/-- The bookmark with a failure, unless an earlier one is known. -/
def Bookmark.latch (p : Bookmark) (e : ParseError) : Bookmark :=
  { p with error := p.error.or (some e) }

namespace Lexed

/-- The text from token number `i` on. -/
def drop (l : Lexed) (i : Nat) : Lexed :=
  { l with tokens := l.tokens.drop i }

/-- Token number `i`, and behind the last one the end of the input. -/
def tokenAt (l : Lexed) (i : Nat) : Token :=
  (l.tokens[i]?.map Prod.fst).getD .eof

/-- The failure that stands behind the last token, if there is one. -/
def errorAt (l : Lexed) (i : Nat) : Option ParseError :=
  if i < l.tokens.length then none else l.failure.map .ofLexError

/-- The bookmark that is come to with token number `i`. -/
def arrive (l : Lexed) (i : Nat) : Bookmark :=
  ⟨i, l.errorAt i⟩

/-- The bookmark on the next token; behind the last one it stays. -/
def pass (l : Lexed) (p : Bookmark) : Bookmark :=
  l.arrive (min (p.index + 1) l.tokens.length)

/-- No failure is known, and a token of one of the kinds is there. -/
def offers (l : Lexed) (p : Bookmark) (kinds : List TokenKind) : Bool :=
  p.error.isNone && kinds.contains (l.tokenAt p.index).kind

def view (l : Lexed) (p : Bookmark) : View :=
  let broken := p.error.isSome
  ⟨l.tokenAt p.index, l.lineAt p.index, broken, (l.tokenAt p.index).isEof || broken, p.error⟩

/-- What one call gives back. -/
def reply (l : Lexed) (p : Bookmark) : Step → Reply
  | .advance | .fail _ | .latch _ => .done
  | .take kind | .require kind =>
    .lexeme (if l.offers p [kind] then some (l.tokenAt p.index).lexeme else none)
  | .takeAny kinds => .kind (if l.offers p kinds then some (l.tokenAt p.index).kind else none)

/-- The bookmark after one call. -/
def after (l : Lexed) (p : Bookmark) : Step → Bookmark
  | .advance => if p.error.isNone then l.pass p else p
  | .take kind => if l.offers p [kind] then l.pass p else p
  | .takeAny kinds => if l.offers p kinds then l.pass p else p
  | .require kind =>
    if l.offers p [kind] then l.pass p else p.latch ((l.drop p.index).misfit kind.describe)
  | .fail message => p.latch (.misplaced (l.lineAt p.index) message)
  | .latch e => p.latch e

/-- The bookmark after calls one after the other. -/
def afterAll (l : Lexed) (p : Bookmark) (steps : List Step) : Bookmark :=
  steps.foldl l.after p

/-- What calls one after the other give back, each with what can be seen after it. -/
def trace (l : Lexed) (p : Bookmark) : List Step → List (Reply × View)
  | [] => []
  | step :: steps => (l.reply p step, l.view (l.after p step)) :: l.trace (l.after p step) steps

end Lexed

/-! ## A cursor and its bookmark -/

namespace Cursor

/-- The cursor shows what the bookmark shows, and unless a failure is known it sees the rest of the
text from there on. -/
structure Keeps (c : Cursor) (l : Lexed) (p : Bookmark) : Prop where
  view : c.view = l.view p
  sees : p.error = none → c.Sees (l.drop p.index)

/-- Where a text is dropped up to a number, its first token is the one with that number. -/
lemma view_drop (l : Lexed) (i : Nat) :
    (l.drop i).view ((l.drop i).arrive 0) = l.view (l.arrive i) := by
  simp [Lexed.drop, Lexed.view, Lexed.arrive, Lexed.tokenAt, Lexed.lineAt, Lexed.errorAt]

/-- A cursor that goes on shows the first token of what was ahead, or how it ends. -/
lemma view_advance {c : Cursor} (ok : c.error = none) :
    c.advance.view = (Lexed.ofChars c.line c.stream.rest).view
      ((Lexed.ofChars c.line c.stream.rest).arrive 0) := by
  rw [advance, isBroken_eq_false.mpr ok, TokenStream.pull]
  obtain ⟨t, n, r, h⟩ | ⟨e, n, h⟩ := scan_cases c.line c.stream.rest
  · rw [show scan c.stream.line c.stream.rest = _ from h, Lexed.ofChars_of_token h]
    simp [view, note, line, isBroken, isDone, ok, Lexed.view, Lexed.arrive, Lexed.tokenAt,
      Lexed.lineAt, Lexed.errorAt]
  · rw [show scan c.stream.line c.stream.rest = _ from h, Lexed.ofChars_of_ending h]
    cases e <;> simp [Ending.scan, view, latch, note, line, isBroken, isDone, ok, Lexed.view,
      Lexed.arrive, Lexed.tokenAt, Lexed.lineAt, Lexed.errorAt, Ending.failure]

lemma keeps_advance {c : Cursor} {l : Lexed} {i : Nat} (ok : c.error = none)
    (rest : Lexed.ofChars c.line c.stream.rest = l.drop i) : c.advance.Keeps l (l.arrive i) := by
  constructor
  · rw [view_advance ok, rest, view_drop]
  · intro _
    have s := sees_advance ok
    rw [rest] at s
    exact s

lemma keeps_ofSource (source : String) :
    (ofSource source).Keeps (Lexed.ofSource source) ((Lexed.ofSource source).arrive 0) :=
  keeps_advance (c := ⟨.ofSource source, .eof, none, #[]⟩) rfl rfl

/-- What is behind the current token starts with the next number. -/
lemma Sees.rest {c : Cursor} {l : Lexed} {i : Nat} (s : c.Sees (l.drop i)) (ok : c.error = none) :
    Lexed.ofChars c.line c.stream.rest = l.drop (min (i + 1) l.tokens.length) := by
  obtain ⟨ts, failure, n⟩ := l
  generalize e : Lexed.drop ⟨ts, failure, n⟩ i = m at s
  -- The number is below the length if there is a token, and otherwise the bookmark stays.
  cases s with
  | token _ _ =>
    simp only [Lexed.drop, Lexed.cons, Lexed.mk.injEq] at e ⊢
    obtain ⟨tokens, rfl, rfl⟩ := e
    have less : i < ts.length := by
      rw [← Nat.not_le, ← List.drop_eq_nil_iff, tokens]
      exact List.cons_ne_nil _ _
    rw [Nat.min_eq_left less, ← List.tail_drop, tokens]
    rfl
  | ended _ _ none =>
    simp only [Lexed.drop, Lexed.mk.injEq] at e ⊢
    obtain ⟨tokens, rfl, rfl⟩ := e
    have more : ts.length ≤ i + 1 := Nat.le_succ_of_le (List.drop_eq_nil_iff.mp tokens)
    have ending : scan c.line c.stream.rest = Ending.closed.scan c.line := by
      rw [none]
      rfl
    rw [Nat.min_eq_right more, List.drop_length, Lexed.ofChars_of_ending ending]
    rfl
  | failed err =>
    rw [ok] at err
    cases err

namespace Keeps
variable {c : Cursor} {l : Lexed} {p : Bookmark}

lemma error (k : c.Keeps l p) : c.error = p.error :=
  congrArg View.error k.view

lemma current (k : c.Keeps l p) : c.current = l.tokenAt p.index :=
  congrArg View.current k.view

lemma line (k : c.Keeps l p) : c.line = l.lineAt p.index :=
  congrArg View.line k.view

lemma isBroken (k : c.Keeps l p) : c.isBroken = p.error.isSome :=
  congrArg View.isBroken k.view

lemma advance (k : c.Keeps l p) : c.advance.Keeps l (if p.error.isNone then l.pass p else p) := by
  cases err : p.error with
  | none =>
    have ok : c.error = none := k.error.trans err
    exact keeps_advance ok ((k.sees err).rest ok)
  | some e =>
    have broken : c.isBroken := by simp [k.isBroken, err]
    rw [Cursor.advance, if_pos broken]
    exact k

lemma latch (k : c.Keeps l p) (e : ParseError) : (c.latch e).Keeps l (p.latch e) := by
  cases err : p.error with
  | none =>
    have ok : c.error = none := k.error.trans err
    constructor
    · have current := k.current
      have line := k.line
      simp only [Cursor.line] at line
      simp [Cursor.latch, Bookmark.latch, Cursor.view, note, Cursor.line, Cursor.isBroken, isDone, ok,
        err, Lexed.view, current, line]
    · intro none
      simp [Bookmark.latch, err] at none
  | some e' =>
    have stuck : p.latch e = p := by
      rw [Bookmark.latch, err, Option.some_or, ← err]
    rw [latch_of_error (k.error.trans err), stuck]
    exact k

lemma failExpecting (k : c.Keeps l p) (what : String) :
    (c.failExpecting what).Keeps l (p.latch ((l.drop p.index).misfit what)) := by
  rw [Cursor.failExpecting, fail]
  cases err : p.error with
  | none =>
    have ok : c.error = none := k.error.trans err
    have due := (k.sees err).error_failExpecting what
    rw [Cursor.failExpecting, fail, error_latch ok] at due
    rw [Option.some.inj due]
    exact k.latch _
  | some e =>
    have stuck (e' : ParseError) : p.latch e' = p := by
      rw [Bookmark.latch, err, Option.some_or, ← err]
    have keeps := k.latch (.misplaced c.line ("expected " ++ what ++ ", got " ++ c.found))
    rw [stuck] at keeps ⊢
    exact keeps

/-- A token of one of the kinds is passed, or nothing happens. -/
lemma takeAny? (k : c.Keeps l p) (kinds : List TokenKind) :
    (c.takeAny? kinds).1 = (if l.offers p kinds then some (l.tokenAt p.index).kind else none) ∧
      (c.takeAny? kinds).2.Keeps l (if l.offers p kinds then l.pass p else p) := by
  have advance := k.advance
  rw [Cursor.takeAny?, k.isBroken, k.current, Lexed.offers]
  cases err : p.error with
  | none =>
    rw [err] at advance
    cases listed : kinds.contains (l.tokenAt p.index).kind with
    | true => exact ⟨rfl, advance⟩
    | false => exact ⟨rfl, k⟩
  | some e => exact ⟨rfl, k⟩

lemma take? (k : c.Keeps l p) (kind : TokenKind) :
    (c.take? kind).1 = (if l.offers p [kind] then some (l.tokenAt p.index).lexeme else none) ∧
      (c.take? kind).2.Keeps l (if l.offers p [kind] then l.pass p else p) := by
  have any := k.takeAny? [kind]
  have same : (c.take? kind).2 = (c.takeAny? [kind]).2 ∧
      (c.take? kind).1 = (c.takeAny? [kind]).1.map fun _ => c.current.lexeme := by
    have kinds : [kind].contains c.current.kind = (c.current.kind == kind) := Bool.or_false _
    rw [Cursor.take?, Cursor.takeAny?, kinds, bne]
    split <;> exact ⟨rfl, rfl⟩
  rw [same.1, same.2, any.1, k.current]
  refine ⟨?_, any.2⟩
  split <;> rfl

lemma require? (k : c.Keeps l p) (kind : TokenKind) :
    (c.require? kind).1 = (if l.offers p [kind] then some (l.tokenAt p.index).lexeme else none) ∧
      (c.require? kind).2.Keeps l (if l.offers p [kind] then l.pass p
        else p.latch ((l.drop p.index).misfit kind.describe)) := by
  obtain ⟨reply, keeps⟩ := k.take? kind
  rw [Cursor.require?]
  cases offered : l.offers p [kind] with
  | true =>
    rw [offered] at reply keeps
    split
    · rename_i taken
      rw [taken] at reply keeps
      exact ⟨reply, keeps⟩
    · rename_i stays
      rw [stays] at reply
      cases reply
  | false =>
    rw [offered] at reply keeps
    split
    · rename_i taken
      rw [taken] at reply
      cases reply
    · rename_i stays
      rw [stays] at keeps
      exact ⟨rfl, keeps.failExpecting _⟩

/-- A call gives the same reply on both sides, and they still belong together after it. -/
lemma step (k : c.Keeps l p) (s : Step) :
    c.reply s = l.reply p s ∧ (c.after s).Keeps l (l.after p s) := by
  cases s with
  | advance => exact ⟨rfl, k.advance⟩
  | take kind => exact ⟨congrArg Reply.lexeme (k.take? kind).1, (k.take? kind).2⟩
  | require kind => exact ⟨congrArg Reply.lexeme (k.require? kind).1, (k.require? kind).2⟩
  | takeAny kinds => exact ⟨congrArg Reply.kind (k.takeAny? kinds).1, (k.takeAny? kinds).2⟩
  | fail message =>
    refine ⟨rfl, ?_⟩
    rw [after, fail, k.line]
    exact k.latch _
  | latch e => exact ⟨rfl, k.latch e⟩

lemma trace (k : c.Keeps l p) (steps : List Step) : c.trace steps = l.trace p steps := by
  induction steps generalizing c p with
  | nil => rfl
  | cons s steps ih =>
    obtain ⟨reply, k'⟩ := k.step s
    rw [Cursor.trace, Lexed.trace, reply, k'.view, ih k']

lemma afterAll (k : c.Keeps l p) (steps : List Step) :
    (c.afterAll steps).Keeps l (l.afterAll p steps) := by
  induction steps generalizing c p with
  | nil => exact k
  | cons s steps ih => exact ih (k.step s).2

end Keeps

end Cursor

/-- Whatever is called on a cursor at the start of a text, all replies and all that can be seen
between the calls are those of a bookmark in the text as it is read at once. While no failure is
known, the tokens from the bookmark on are exactly those that the cursor has ahead of it. The text
is read as the tokens that it is divided into, each on the line on which it ends. -/
theorem trace_ofSource (source : String) (steps : List Step) :
    let c := Cursor.ofSource source
    let l := Lexed.ofSource source
    c.view = l.view (l.arrive 0) ∧ c.trace steps = l.trace (l.arrive 0) steps ∧
      ((c.afterAll steps).isBroken ∨
        (c.afterAll steps).ahead = l.drop (l.afterAll (l.arrive 0) steps).index) ∧
      ∃ ps last e, Divides source.toList ps last e ∧
        l.tokens.map Prod.fst = ps.map Piece.token ∧
        l.failure = e.failure (1 + newlines source.toList) ∧
        ∀ i, l.lineAt i = 1 + newlines (textUpTo ps last (i + 1)) := by
  have k := Cursor.keeps_ofSource source
  refine ⟨k.view, k.trace steps, ?_, ?_⟩
  · have k' := k.afterAll steps
    by_cases broken : ((Cursor.ofSource source).afterAll steps).isBroken
    · exact .inl broken
    · have ok := k'.error.symm.trans (Cursor.isBroken_eq_false.mp (Bool.eq_false_iff.mpr broken))
      exact .inr ((k'.sees ok).eq_ahead broken).symm
  · obtain ⟨ps, last, e, d⟩ := exists_divides source.toList
    refine ⟨ps, last, e, d, ?_, ?_, Lexed.lineAt_of_divides d⟩
    · rw [Lexed.ofSource, d.ofChars, map_fst_numbered]
    · rw [Lexed.ofSource, d.ofChars]

end EnumGen
