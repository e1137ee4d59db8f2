import EnumGen.Proofs.Document.Ahead
import Mathlib.Data.List.Induction

/-!
# What a caller can do with a cursor

A `Step` is one call of an operation, with everything the caller chooses. However a cursor was
reached from the start of a text, as long as it has met no failure it stands on one of the tokens
of the text or behind the last one, and what is ahead of it is the rest of what the whole text is
read as (`sees_afterAll`).
-/

namespace EnumGen

/-- One call of an operation on a cursor. -/
inductive Step
  | advance
  | take (kind : TokenKind)
  | require (kind : TokenKind)
  | takeAny (kinds : List TokenKind)
  | fail (message : String)
  | latch (e : ParseError)
  deriving Repr

namespace Cursor

/-- The cursor after one call. -/
def after (c : Cursor) : Step → Cursor
  | .advance => c.advance
  | .take kind => (c.take? kind).2
  | .require kind => (c.require? kind).2
  | .takeAny kinds => (c.takeAny? kinds).2
  | .fail message => c.fail message
  | .latch e => c.latch e

/-- The cursor after calls one after the other. -/
def afterAll (c : Cursor) (steps : List Step) : Cursor :=
  steps.foldl after c

/-- The current token and the tokens not yet read, with the failure that cuts them short. -/
def ahead (c : Cursor) : Lexed :=
  if c.current.isEof then ⟨[], none, c.line⟩
  else (Lexed.ofChars c.line c.stream.rest).cons c.current c.line

/-- A cursor that has met no failure sees what is ahead of it. -/
lemma Sees.eq_ahead {c : Cursor} {l : Lexed} (s : c.Sees l) (ok : ¬c.isBroken) : l = c.ahead := by
  cases s with
  | token _ now => rw [ahead, if_neg now]
  | ended _ now _ => rw [ahead, if_pos now]
  | failed err => exact absurd (by simp [isBroken, err]) ok

/-- No call changes a cursor that has met a failure. -/
lemma after_of_error {c : Cursor} {e : ParseError} (err : c.error = some e) (step : Step) :
    c.after step = c := by
  have broken : c.isBroken := by simp [isBroken, err]
  cases step with
  | advance => exact if_pos broken
  | take kind => simp [after, take?, broken]
  | takeAny kinds => simp [after, takeAny?, broken]
  | require kind =>
    simp [after, require?, take?, broken, failExpecting, Cursor.fail, latch_of_error err]
  | fail message => exact latch_of_error err _
  | latch e => exact latch_of_error err e

/-- A call that breaks no cursor leaves it where it is or goes on to the next token. -/
lemma after_cases {c : Cursor} {step : Step} (ok : ¬(c.after step).isBroken) :
    ¬c.isBroken ∧ (c.after step = c ∨ c.after step = c.advance) := by
  have latched (c : Cursor) (e : ParseError) : (c.latch e).isBroken := isBroken_latch c e
  have ok' : ¬c.isBroken := by
    intro broken
    obtain ⟨e, err⟩ := Option.isSome_iff_exists.mp broken
    rw [after_of_error err] at ok
    exact ok broken
  refine ⟨ok', ?_⟩
  cases step with
  | advance => exact .inr rfl
  | take kind =>
    rw [after, take?]
    split
    · exact .inl rfl
    · exact .inr rfl
  | takeAny kinds =>
    rw [after, takeAny?]
    split
    · exact .inl rfl
    · exact .inr rfl
  | require kind =>
    -- A token that is not there breaks the cursor, so it was there.
    rw [after, require?, take?] at ok ⊢
    by_cases stays : c.isBroken || c.current.kind != kind
    · rw [if_pos stays] at ok
      exact absurd (latched c _) ok
    · rw [if_neg stays]
      exact .inr rfl
  | fail message => exact absurd (latched c _) ok
  | latch e => exact absurd (latched c e) ok

/-- The next token has the rest of what is ahead in front of it. -/
lemma Sees.advance_suffix {c : Cursor} {l : Lexed} (s : c.Sees l) (ok : ¬c.isBroken) :
    ∃ l', c.advance.Sees l' ∧ l'.tokens <:+ l.tokens ∧ l'.failure = l.failure ∧ l'.line = l.line := by
  cases s with
  | token no _ =>
    exact ⟨_, sees_advance no, List.suffix_cons _ _, rfl, rfl⟩
  | ended no _ none =>
    refine ⟨_, sees_advance no, ?_⟩
    have ending : scan c.line c.stream.rest = Ending.closed.scan c.line := by
      rw [none]
      rfl
    rw [Lexed.ofChars_of_ending ending]
    exact ⟨List.suffix_rfl, rfl, rfl⟩
  | failed err => exact absurd (by simp [isBroken, err]) ok

/-- Whatever is called, the tokens ahead are the last ones of the text and end as the text ends. -/
lemma sees_afterAll {c : Cursor} {l : Lexed} (steps : List Step) (s : c.Sees l)
    (ok : ¬(c.afterAll steps).isBroken) :
    ∃ l', (c.afterAll steps).Sees l' ∧ l'.tokens <:+ l.tokens ∧ l'.failure = l.failure ∧
      l'.line = l.line := by
  -- From the right, since the last call tells that no earlier one has broken the cursor.
  induction steps using List.reverseRecOn with
  | nil => exact ⟨l, s, List.suffix_rfl, rfl, rfl⟩
  | append_singleton steps step ih =>
    have last : c.afterAll (steps ++ [step]) = (c.afterAll steps).after step := by
      simp [afterAll]
    rw [last] at ok ⊢
    obtain ⟨ok', stays | moves⟩ := after_cases ok
    · rw [stays]
      exact ih ok'
    · obtain ⟨l₁, s₁, suffix₁, failure₁, line₁⟩ := ih ok'
      obtain ⟨l₂, s₂, suffix₂, failure₂, line₂⟩ := s₁.advance_suffix ok'
      rw [moves]
      exact ⟨l₂, s₂, suffix₂.trans suffix₁, failure₂.trans failure₁, line₂.trans line₁⟩

end Cursor

end EnumGen
