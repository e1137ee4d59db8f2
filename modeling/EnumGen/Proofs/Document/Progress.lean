import EnumGen.Proofs.Document.Steps

/-!
# Reading makes progress

A stream that gives a token leaves some of its text behind, and one that gives the end or a failure
leaves all of it behind (`TokenStream.rest_pull`). So a cursor that has matched something has fewer
tokens ahead: `Passes` says that at least one of them has been passed or that a failure has been met.
Every step of reading passes tokens in this sense (`Reading.passes_step`), also inside a definition
that the text does not close. Hence reading ends after as many rounds as there are tokens ahead, and
one more in which it turns out to be over (`reading_within_tokens`).
-/

namespace EnumGen

/-! ## Streams -/

/-- A token takes at least one character of the text, and the end or a failure takes all of them. -/
lemma TokenStream.rest_pull (s : TokenStream) :
    match s.pull with
    | (.ok t, s') =>
      if t.isEof then s'.rest = [] else ∃ passed, passed ≠ [] ∧ s.rest = passed ++ s'.rest
    | (.error _, s') => s'.rest = [] := by
  rw [pull]
  obtain ⟨t, n, r, found⟩ | ⟨e, n, found⟩ := scan_cases s.line s.rest
  · obtain ⟨gap, text, is, -, spells, -⟩ := scan_eq_token found
    rw [found]
    dsimp only
    rw [if_neg spells.not_isEof]
    refine ⟨gap ++ text, ?_, by rw [is, List.append_assoc]⟩
    exact fun none => spells.ne_nil (List.append_eq_nil_iff.mp none).2
  · rw [found]
    cases e <;> rfl

/-! ## Cursors -/

namespace Cursor

/-- Unless a failure has been met, what is ahead now was ahead before. -/
def Precedes (c c' : Cursor) : Prop :=
  ¬c'.isBroken → ¬c.isBroken ∧ c'.ahead.tokens <:+ c.ahead.tokens

/-- Unless a failure has been met, at least one of the tokens that were ahead has been passed. -/
def Passes (c c' : Cursor) : Prop :=
  ¬c'.isBroken → ¬c.isBroken ∧ ∃ t ts, c.ahead.tokens = t :: ts ∧ c'.ahead.tokens <:+ ts

variable {c c' c'' : Cursor} {k : TokenKind}

lemma Precedes.refl (c : Cursor) : c.Precedes c :=
  fun ok => ⟨ok, List.suffix_rfl⟩

lemma Passes.precedes (p : c.Passes c') : c.Precedes c' := by
  intro ok
  obtain ⟨ok', t, ts, ahead, suffix⟩ := p ok
  rw [ahead]
  exact ⟨ok', suffix.trans (List.suffix_cons t ts)⟩

lemma Precedes.trans (f : c.Precedes c') (f' : c'.Precedes c'') : c.Precedes c'' := by
  intro ok
  obtain ⟨ok', suffix'⟩ := f' ok
  obtain ⟨ok'', suffix⟩ := f ok'
  exact ⟨ok'', suffix'.trans suffix⟩

lemma Passes.trans (p : c.Passes c') (f : c'.Precedes c'') : c.Passes c'' := by
  intro ok
  obtain ⟨ok', suffix'⟩ := f ok
  obtain ⟨ok'', t, ts, ahead, suffix⟩ := p ok'
  exact ⟨ok'', t, ts, ahead, suffix'.trans suffix⟩

lemma passes_of_isBroken (broken : c'.isBroken) : c.Passes c' :=
  fun ok => absurd broken ok

lemma passes_failExpecting (c c' : Cursor) (what : String) : c.Passes (c'.failExpecting what) :=
  passes_of_isBroken (isBroken_latch c' _)

lemma passes_advance (more : ¬c.current.isEof) : c.Passes c.advance := by
  intro ok
  have moved : ¬(c.after .advance).isBroken := ok
  have ok' := (after_cases moved).1
  have sees := sees_advance (isBroken_eq_false.mp (Bool.eq_false_iff.mpr ok'))
  refine ⟨ok', (c.current, c.line), c.advance.ahead.tokens, ?_, List.suffix_rfl⟩
  rw [← sees.eq_ahead ok, ahead, if_neg more]
  rfl

lemma passes_take? {x : String} (eof : k ≠ .eof) (taken : c.take? k = (some x, c')) :
    c.Passes c' := by
  rw [take?] at taken
  split at taken
  · cases taken
  · rename_i here
    cases taken
    have kind : c.current.kind = k := by simp_all
    exact passes_advance (by simpa [Token.isEof, kind] using eof)

lemma precedes_take? (c : Cursor) (eof : k ≠ .eof) : c.Precedes (c.take? k).2 := by
  generalize taken : c.take? k = result
  obtain ⟨x | x, c'⟩ := result
  · rw [take?] at taken
    split at taken <;> cases taken
    exact .refl c
  · exact (passes_take? eof taken).precedes

lemma precedes_takeAny?_ints (c : Cursor) : c.Precedes (c.takeAny? TokenKind.ints).2 := by
  rw [takeAny?]
  split
  · exact .refl c
  · rename_i here
    have listed : c.current.kind ∈ TokenKind.ints := by simp_all
    obtain ⟨t, -, is⟩ := List.mem_map.mp listed
    exact (passes_advance (by simp [Token.isEof, ← is])).precedes

lemma passes_require? (c : Cursor) (eof : k ≠ .eof) : c.Passes (c.require? k).2 := by
  rw [require?]
  split
  · rename_i taken
    exact passes_take? eof taken
  · exact passes_failExpecting c _ _

/-! ## Definitions and their members -/

lemma precedes_base? (c : Cursor) : c.Precedes c.base?.2 := by
  have brace := c.precedes_take? (k := .lbrace) nofun
  rw [base?]
  split
  · rename_i c₁ taken
    rwa [taken] at brace
  · rename_i c₁ stays
    rw [stays] at brace
    have int := c₁.precedes_takeAny?_ints
    split
    · rename_i t c₂ taken
      rw [taken] at int
      have after := (c₂.passes_require? (k := .lbrace) nofun).precedes
      split <;> (rename_i required; rw [required] at after; exact (brace.trans int).trans after)
    · exact (passes_failExpecting c _ _).precedes

lemma passes_header? (c : Cursor) : c.Passes c.header?.2 := by
  have type := c.passes_require? (k := .type) nofun
  rw [header?]
  split
  · rename_i c₁ fails
    rwa [fails] at type
  · rename_i x c₁ matched
    rw [matched] at type
    have name := (c₁.passes_require? (k := .ident) nofun).precedes
    split
    · rename_i c₂ fails
      rw [fails] at name
      exact type.trans name
    · rename_i n c₂ matched
      rw [matched] at name
      have enum := (c₂.passes_require? (k := .enum) nofun).precedes
      split
      · rename_i c₃ fails
        rw [fails] at enum
        exact type.trans (name.trans enum)
      · rename_i y c₃ matched
        rw [matched] at enum
        have base := c₃.precedes_base?
        split <;>
          (rename_i found; rw [found] at base; exact type.trans (name.trans (enum.trans base)))

lemma passes_member? (c : Cursor) : c.Passes c.member?.2 := by
  have name := c.passes_require? (k := .ident) nofun
  rw [member?]
  split
  · rename_i c₁ fails
    rwa [fails] at name
  · rename_i n c₁ matched
    rw [matched] at name
    have tag := c₁.precedes_take? (k := .tag) nofun
    split <;> (rename_i found; rw [found] at tag; exact name.trans tag)

end Cursor

/-! ## Rounds of reading -/

namespace Reading

/-- Every step passes tokens or meets a failure. -/
lemma passes_step (r : Reading) : r.cursor.Passes r.step.cursor := by
  rw [step]
  split
  · rename_i e inside
    rw [stepInside]
    split
    · exact r.cursor.passes_require? (k := .rbrace) nofun
    · split
      · rename_i c taken
        -- that the definition is closed is noted, which moves nothing
        have passed : r.cursor.Passes c := Cursor.passes_take? (k := .rbrace) nofun taken
        exact passed
      · rename_i c stays
        have brace := r.cursor.precedes_take? (k := .rbrace) nofun
        have same : c = r.cursor := by
          rw [Cursor.take?] at stays
          split at stays <;> cases stays
          rfl
        have member := r.cursor.passes_member?
        rw [same]
        split <;> (rename_i found; rw [found] at member; exact member)
  · exact r.cursor.passes_header?

/-- What reading comes to in at most the given number of rounds. In a round it turns out that reading
is over, or a step is taken; there is no further round behind a failure. -/
def runWithin : Nat → Reading → Option Reading
  | 0, _ => none
  | rounds + 1, r =>
    if r.isOver then some r
    else if r.step.cursor.isBroken then some r.step
    else runWithin rounds r.step

/-- There is a round for every token that is passed, and one more. -/
lemma runWithin_eq_run {rounds : Nat} {r : Reading}
    (enough : r.cursor.ahead.tokens.length < rounds) : r.runWithin rounds = some r.run := by
  induction rounds generalizing r with
  | zero => exact absurd enough (Nat.not_lt_zero _)
  | succ rounds ih =>
    rw [runWithin, run]
    split
    · rfl
    · split
      · rename_i broken
        rw [run, if_pos (by simp [isOver, broken])]
      · rename_i ok
        obtain ⟨-, t, ts, ahead, suffix⟩ := r.passes_step ok
        apply ih
        rw [ahead, List.length_cons] at enough
        exact Nat.lt_of_le_of_lt suffix.length_le (Nat.lt_of_succ_lt_succ enough)

end Reading

/-- Reads a document in at most the given number of rounds. -/
def Cursor.readWithin (rounds : Nat) (c : Cursor) : Option (Document × Cursor) :=
  let c := (c.require? .package).2
  match c.require? .ident with
  | (none, c) => some (.empty, c)
  | (some package, c) =>
    (Reading.runWithin rounds ⟨c, package, #[], none⟩).map fun r => (r.document, r.cursor)

/-- A stream that gives a token has passed at least one character, and one that gives the end or a
failure has passed all of them. Each step of reading meets a failure or passes at least one token. So
reading ends after at most one round for every token ahead and one more, wherever it starts, and so
it does if a document is read from any cursor. -/
theorem reading_within_tokens :
    (∀ s : TokenStream,
      match s.pull with
      | (.ok t, s') =>
        if t.isEof then s'.rest = [] else ∃ passed, passed ≠ [] ∧ s.rest = passed ++ s'.rest
      | (.error _, s') => s'.rest = []) ∧
    (∀ r : Reading, r.step.cursor.isBroken ∨
      ∃ t ts, r.cursor.ahead.tokens = t :: ts ∧ r.step.cursor.ahead.tokens <:+ ts) ∧
    (∀ r : Reading, r.runWithin (r.cursor.ahead.tokens.length + 1) = some r.run) ∧
    ∀ c : Cursor, c.readWithin (c.ahead.tokens.length + 1) = some c.readDocument := by
  refine ⟨TokenStream.rest_pull, ?_, ?_, ?_⟩
  · intro r
    by_cases broken : r.step.cursor.isBroken
    · exact .inl broken
    · exact .inr (r.passes_step broken).2
  · intro r
    exact Reading.runWithin_eq_run (Nat.lt_succ_self _)
  · intro c
    have package := (c.passes_require? (k := .package) nofun).precedes
    have name := ((c.require? .package).2.passes_require? (k := .ident) nofun).precedes
    rw [Cursor.readWithin, Cursor.readDocument]
    dsimp only
    generalize found : (c.require? .package).2.require? .ident = result at name ⊢
    obtain ⟨x | p, c'⟩ := result
    · rfl
    · dsimp only at name ⊢
      by_cases broken : c'.isBroken
      · -- the first round finds the failure behind the name
        have finished : Reading.isOver ⟨c', p, #[], none⟩ := by simp [Reading.isOver, broken]
        rw [Reading.runWithin, if_pos finished, Reading.run, if_pos finished]
        rfl
      · have fewer := ((package.trans name) broken).2.length_le
        rw [Reading.runWithin_eq_run (Nat.lt_succ_of_le fewer)]
        rfl

-- A member and the closing brace take a round each, and the end of the input is met in a third.
example : Reading.runWithin 2 ⟨.ofSource "A \x7d", "p", #[], some ⟨"T", .int, #[]⟩⟩ = none := by
  cbv

end EnumGen
