import EnumGen.Document.Parse
import EnumGen.Proofs.Document.Position
import EnumGen.Proofs.Token.Lossless

/-!
# What lies ahead of a cursor

A cursor reads one token at a time, but everything it will read is settled by the text. `Sees`
relates a cursor that has met no misplaced token to the tokens from the current one on and to the
way the text ends; a cursor whose next token could not be read sees that failure and nothing else.
Every text is seen whole at its start (`sees_ofSource`).

Each way to match a token is then described on what is ahead: the token is there and the cursor
sees what is behind it, or it is not and the cursor stays (`Sees.take?`) or fails with the error
that is due at this place (`Sees.require?`).
-/

namespace EnumGen

open Grammar

/-! ## Tokens to come -/

namespace Lexed

/-- One more token in front. -/
def cons (t : Token) (n : Nat) (l : Lexed) : Lexed :=
  { l with tokens := (t, n) :: l.tokens }

/-- The first token, or what stands behind the last one. -/
def item (l : Lexed) : Item :=
  match l.tokens, l.failure with
  | (t, _) :: _, _ => .token t
  | [], none => .eof
  | [], some _ => .failure

/-- The error that is due where something else is expected. -/
def misfit (l : Lexed) (what : String) : ParseError :=
  match l.tokens, l.failure with
  | (t, n) :: _, _ =>
    .misplaced n ("expected " ++ what ++ ", got " ++ (t.kind.describe ++ " " ++ Text.quote t.lexeme))
  | [], none => .misplaced l.line ("expected " ++ what ++ ", got " ++ "end of input")
  | [], some e => .ofLexError e

/-- The first token is of the given kind. -/
def Has (l : Lexed) (kind : TokenKind) : Prop :=
  ∃ x, l.item = .token ⟨kind, x⟩

lemma has_cons {t : Token} {n : Nat} {l : Lexed} {kind : TokenKind} :
    (l.cons t n).Has kind ↔ t.kind = kind := by
  constructor
  · rintro ⟨x, e⟩
    cases e
    rfl
  · rintro rfl
    exact ⟨t.lexeme, rfl⟩

lemma cons_inj {t t' : Token} {n n' : Nat} {l l' : Lexed} (e : l.cons t n = l'.cons t' n') :
    t = t' ∧ n = n' ∧ l = l' := by
  cases l
  cases l'
  cases e
  exact ⟨rfl, rfl, rfl⟩

lemma eq_cons_of_item {l : Lexed} {t : Token} (e : l.item = .token t) :
    ∃ n l', l = Lexed.cons t n l' := by
  obtain ⟨ts, failure, line⟩ := l
  cases ts with
  | nil => cases failure <;> cases e
  | cons p ts =>
    cases e
    exact ⟨p.2, ⟨ts, failure, line⟩, rfl⟩

end Lexed

namespace Cursor

/-- What is ahead of the cursor, the current token included, unless a token was misplaced. -/
inductive Sees : Cursor → Lexed → Prop
  | token {c : Cursor} : c.error = none → ¬c.current.isEof →
    Sees c ((Lexed.ofChars c.line c.stream.rest).cons c.current c.line)
  | ended {c : Cursor} : c.error = none → c.current.isEof → c.stream.rest = [] →
    Sees c ⟨[], none, c.line⟩
  | failed {c : Cursor} {e n} : c.error = some (.ofLexError e) → Sees c ⟨[], some e, n⟩

lemma isBroken_eq_false {c : Cursor} : c.isBroken = false ↔ c.error = none := by
  simp [isBroken]

lemma error_latch {c : Cursor} (ok : c.error = none) (e : ParseError) :
    (c.latch e).error = some e := by
  rw [latch, isBroken_eq_false.mpr ok]
  rfl

lemma latch_of_error {c : Cursor} {e : ParseError} (err : c.error = some e) (e' : ParseError) :
    c.latch e' = c := by
  have broken : c.isBroken := by simp [isBroken, err]
  rw [latch, if_pos broken]

/-- Behind the current token the cursor sees the rest of the text. -/
lemma sees_advance {c : Cursor} (ok : c.error = none) :
    c.advance.Sees (Lexed.ofChars c.line c.stream.rest) := by
  rw [advance, isBroken_eq_false.mpr ok, TokenStream.pull]
  obtain ⟨t, n, r, h⟩ | ⟨e, n, h⟩ := scan_cases c.line c.stream.rest
  · -- A token of the text is never mistaken for its end.
    obtain ⟨_, _, _, _, sp, _⟩ := scan_eq_token h
    rw [show scan c.stream.line c.stream.rest = _ from h, Lexed.ofChars_of_token h]
    exact .token ok sp.not_isEof
  · rw [show scan c.stream.line c.stream.rest = _ from h, Lexed.ofChars_of_ending h]
    cases e with
    | closed => exact .ended ok rfl rfl
    | cut => exact .failed (error_latch (c := ⟨_, .eof, c.error, c.events⟩) ok _)

/-- At the start of a text the cursor sees the whole of it. -/
lemma sees_ofSource (source : String) : (ofSource source).Sees (Lexed.ofSource source) :=
  sees_advance (c := ⟨.ofSource source, .eof, none, #[]⟩) rfl

/-! ## Matching a token -/

namespace Sees
variable {c : Cursor} {l : Lexed}

lemma of_cons {t n} (s : c.Sees (l.cons t n)) :
    c.error = none ∧ c.current = t ∧ c.line = n ∧ Lexed.ofChars c.line c.stream.rest = l := by
  generalize e : l.cons t n = l' at s
  cases s with
  | token ok _ =>
    cases l
    cases e
    exact ⟨ok, rfl, rfl, rfl⟩
  | ended _ _ _ | failed _ => cases e

lemma advance {t n} (s : c.Sees (l.cons t n)) : c.advance.Sees l := by
  obtain ⟨ok, _, _, rest⟩ := s.of_cons
  rw [← rest]
  exact sees_advance ok

lemma kind_ne {kind} (s : c.Sees l) (no : ¬l.Has kind) (eof : kind ≠ .eof) (ok : c.error = none) :
    c.current.kind ≠ kind := by
  cases s with
  | token _ _ => exact fun e => no (Lexed.has_cons.mpr e)
  | ended _ end' _ =>
    intro e
    apply eof
    rw [← e]
    simpa [Token.isEof] using end'
  | failed err =>
    rw [ok] at err
    cases err

lemma error_failExpecting (s : c.Sees l) (what : String) :
    (c.failExpecting what).error = some (l.misfit what) := by
  cases s with
  | token ok now =>
    rw [failExpecting, fail, error_latch ok, found, if_neg now]
    rfl
  | ended ok now _ =>
    have kind : c.current.kind = .eof := by simpa [Token.isEof] using now
    rw [failExpecting, fail, error_latch ok, found, if_pos now, kind]
    rfl
  | failed err =>
    rw [failExpecting, fail, latch_of_error err]
    exact err

/-- A token of the kind is there and is passed, or the cursor stays. -/
lemma take? (s : c.Sees l) {k : TokenKind} (eof : k ≠ .eof) :
    (∃ x n l' c', l = l'.cons ⟨k, x⟩ n ∧ c.take? k = (some x, c') ∧ c'.Sees l') ∨
      (¬l.Has k ∧ c.take? k = (none, c)) := by
  by_cases has : l.Has k
  · obtain ⟨x, e⟩ := has
    obtain ⟨n, l', rfl⟩ := Lexed.eq_cons_of_item e
    obtain ⟨ok, now, _, _⟩ := s.of_cons
    refine .inl ⟨x, n, l', c.advance, rfl, ?_, s.advance⟩
    simp [Cursor.take?, isBroken_eq_false.mpr ok, now]
  · refine .inr ⟨has, ?_⟩
    cases broken : c.isBroken with
    | true => simp [Cursor.take?, broken]
    | false =>
      have other := s.kind_ne has eof (isBroken_eq_false.mp broken)
      simp [Cursor.take?, broken, other]

/-- A token of the kind is there and is passed, or the cursor fails with the error that is due. -/
lemma require? (s : c.Sees l) {k : TokenKind} (eof : k ≠ .eof) :
    (∃ x n l' c', l = l'.cons ⟨k, x⟩ n ∧ c.require? k = (some x, c') ∧ c'.Sees l') ∨
      (¬l.Has k ∧ ∃ c', c.require? k = (none, c') ∧ c'.error = some (l.misfit k.describe)) := by
  obtain ⟨x, n, l', c', e, taken, s'⟩ | ⟨has, stays⟩ := s.take? eof
  · refine .inl ⟨x, n, l', c', e, ?_, s'⟩
    rw [Cursor.require?, taken]
  · refine .inr ⟨has, _, ?_, s.error_failExpecting _⟩
    rw [Cursor.require?, stays]

/-- An integer type is there and is passed, or the cursor stays. -/
lemma takeAny?_ints (s : c.Sees l) :
    (∃ t x n l' c', l = l'.cons ⟨.int t, x⟩ n ∧
      c.takeAny? TokenKind.ints = (some (.int t), c') ∧ c'.Sees l') ∨
      ((∀ t, ¬l.Has (.int t)) ∧ c.takeAny? TokenKind.ints = (none, c)) := by
  have mem {kind} : kind ∈ TokenKind.ints ↔ ∃ t, kind = .int t := by
    simp [TokenKind.ints, IntType.mem_all, eq_comm]
  by_cases has : ∃ t, l.Has (.int t)
  · obtain ⟨t, x, e⟩ := has
    obtain ⟨n, l', rfl⟩ := Lexed.eq_cons_of_item e
    obtain ⟨ok, now, _, _⟩ := s.of_cons
    refine .inl ⟨t, x, n, l', c.advance, rfl, ?_, s.advance⟩
    have listed : TokenKind.int t ∈ TokenKind.ints := mem.mpr ⟨t, rfl⟩
    simp [Cursor.takeAny?, isBroken_eq_false.mpr ok, now, listed]
  · rw [not_exists] at has
    refine .inr ⟨has, ?_⟩
    cases broken : c.isBroken with
    | true => simp [Cursor.takeAny?, broken]
    | false =>
      have other : c.current.kind ∉ TokenKind.ints := by
        intro h
        obtain ⟨t, e⟩ := mem.mp h
        exact s.kind_ne (has t) nofun (isBroken_eq_false.mp broken) e
      simp [Cursor.takeAny?, broken, other]

end Sees

end Cursor

end EnumGen
