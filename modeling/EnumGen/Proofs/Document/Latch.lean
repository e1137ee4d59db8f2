import EnumGen.Proofs.Document.Lockstep
import EnumGen.Proofs.Document.Reading

/-!
# The first failure stays

A cursor remembers the first failure that the calls on it raise. `raises?` says what a call has to
complain of where the cursor stands, and does not ask whether a failure is known already; a run of
calls may well raise several. What a cursor remembers is the first of them (`error_afterAll`).

From then on the cursor is stuck: no call moves it or adds to its events, and none matches
anything. So it ends with the first failure, also if a document is read from there
(`afterAll_of_isBroken`).
-/

namespace EnumGen

/-- Nothing was matched. -/
def Reply.isNone : Reply → Bool
  | done => true
  | lexeme text => text.isNone
  | kind k => k.isNone

namespace Cursor

/-! ## The failures that calls raise -/

/-- The cursor before the first token of a text is read. -/
def unread (source : String) : Cursor :=
  ⟨.ofSource source, .eof, none, #[]⟩

/-- The text ends inside a comment or a tag, with no token in between. -/
def cut? (c : Cursor) : Option ParseError :=
  match c.stream.pull with
  | (.ok _, _) => none
  | (.error e, _) => some (.ofLexError e)

/-- The failure that a call has to raise where the cursor stands: a token that may not stand here, a
failure of the caller's own, or one behind the token that is passed. -/
def raises? (c : Cursor) : Step → Option ParseError
  | .advance => c.cut?
  | .take kind => if c.current.kind = kind then c.cut? else none
  | .takeAny kinds => if c.current.kind ∈ kinds then c.cut? else none
  | .require kind =>
    if c.current.kind = kind then c.cut?
    else some (.misplaced c.line ("expected " ++ kind.describe ++ ", got " ++ c.found))
  | .fail message => some (.misplaced c.line message)
  | .latch e => some e

/-- The failures that calls raise, in order. -/
def raisedBy (c : Cursor) : List Step → List ParseError
  | [] => []
  | step :: steps => (c.raises? step).toList ++ (c.after step).raisedBy steps

lemma error_latch_eq (c : Cursor) (e : ParseError) : (c.latch e).error = c.error.or (some e) := by
  cases err : c.error with
  | none => exact error_latch err e
  | some e' => rw [latch_of_error err, err, Option.some_or]

lemma error_advance {c : Cursor} (ok : c.error = none) : c.advance.error = c.cut? := by
  rw [advance, isBroken_eq_false.mpr ok, cut?]
  generalize c.stream.pull = result
  obtain ⟨t | e, s⟩ := result
  · exact error_latch (c := ⟨s, .eof, c.error, c.events⟩) ok _
  · exact ok

/-! ## A stuck cursor -/

lemma reply_of_error {c : Cursor} {e : ParseError} (err : c.error = some e) (step : Step) :
    (c.reply step).isNone := by
  have broken : c.isBroken := by simp [isBroken, err]
  cases step with
  | advance | fail _ | latch _ => rfl
  | take kind => simp [reply, take?, broken, Reply.isNone]
  | takeAny kinds => simp [reply, takeAny?, broken, Reply.isNone]
  | require kind =>
    rw [reply, require?_of_error err]
    rfl

lemma afterAll_of_error {c : Cursor} {e : ParseError} (err : c.error = some e) (steps : List Step) :
    c.afterAll steps = c ∧ ∀ r ∈ c.trace steps, r.1.isNone := by
  induction steps with
  | nil => exact ⟨rfl, List.forall_mem_nil _⟩
  | cons step steps ih =>
    have same := after_of_error err step
    constructor
    · show (c.after step).afterAll steps = c
      rw [same]
      exact ih.1
    · rw [trace, same, List.forall_mem_cons]
      exact ⟨reply_of_error err step, ih.2⟩

lemma readDocument_of_error {c : Cursor} {e : ParseError} (err : c.error = some e) :
    c.readDocument = (.empty, c) := by
  simp only [readDocument, require?_of_error err]

/-! ## The first failure -/

/-- Beside what is known already, a call adds what it has to raise. -/
lemma error_after (c : Cursor) (step : Step) :
    (c.after step).error = c.error.or (c.raises? step) := by
  cases err : c.error with
  | some e => rw [after_of_error err, err, Option.some_or]
  | none =>
    have ok : c.isBroken = false := isBroken_eq_false.mpr err
    rw [Option.none_or]
    cases step with
    | advance => exact error_advance err
    | take kind =>
      by_cases here : c.current.kind = kind
      · simp [after, take?, raises?, ok, here, error_advance err]
      · simp [after, take?, raises?, ok, here, err]
    | takeAny kinds =>
      by_cases here : c.current.kind ∈ kinds
      · simp [after, takeAny?, raises?, ok, here, error_advance err]
      · simp [after, takeAny?, raises?, ok, here, err]
    | require kind =>
      by_cases here : c.current.kind = kind
      · simp [after, require?, take?, raises?, ok, here, error_advance err]
      · simp [after, require?, take?, raises?, ok, here, failExpecting, Cursor.fail,
          error_latch_eq, err]
    | fail message => exact error_latch err _
    | latch e => exact error_latch err e

/-- After any calls the cursor remembers the first failure that was raised, if one was. -/
lemma error_afterAll (c : Cursor) (steps : List Step) :
    (c.afterAll steps).error = c.error.or (c.raisedBy steps).head? := by
  induction steps generalizing c with
  | nil => simp [afterAll, raisedBy]
  | cons step steps ih =>
    calc ((c.after step).afterAll steps).error
        = (c.after step).error.or ((c.after step).raisedBy steps).head? := ih _
      _ = c.error.or ((c.raises? step).or ((c.after step).raisedBy steps).head?) := by
        rw [error_after, Option.or_assoc]
      _ = c.error.or (c.raisedBy (step :: steps)).head? := by
        rw [raisedBy, List.head?_append, Option.head?_toList]

end Cursor

/-- A cursor that has met a failure remembers the first one that was raised, be it by a call or
behind a token that was passed. No further calls change anything about it, and all of them come to
nothing. Whatever value is at hand, it ends with that failure, and so does the attempt to read a
document, which does not read on. -/
theorem afterAll_of_isBroken (source : String) (steps : List Step)
    (broken : ((Cursor.ofSource source).afterAll steps).isBroken) :
    let c := (Cursor.ofSource source).afterAll steps
    ∃ e, ((Cursor.unread source).raisedBy (.advance :: steps)).head? = some e ∧ c.error = some e ∧
      (∀ more, c.afterAll more = c ∧ ∀ r ∈ c.trace more, r.1.isNone) ∧
      (∀ (α : Type) (value : α), c.finish value = .error e) ∧
      c.parseDocument = .error e ∧ c.readDocument.2 = c := by
  intro c
  obtain ⟨e, err⟩ := Option.isSome_iff_exists.mp broken
  have first : c.error = ((Cursor.unread source).raisedBy (.advance :: steps)).head? :=
    Cursor.error_afterAll (Cursor.unread source) (.advance :: steps)
  have read := Cursor.readDocument_of_error err
  refine ⟨e, first.symm.trans err, err, Cursor.afterAll_of_error err, fun α value => ?_,
    Cursor.parseDocument_of_error read err, by rw [read]⟩
  rw [Cursor.finish, show c.error = some e from err]

/-- The token behind `package` cannot be read, which comes before what the caller complains of. -/
theorem afterAll_cut :
    ((Cursor.ofSource "package\n/* x").afterAll
        [.require .package, .fail "late", .require .ident]).isBroken ∧
      ((Cursor.ofSource "package\n/* x").afterAll
        [.require .package, .fail "late", .require .ident]).parseDocument =
          .error (.unexpectedEnd 2) := by
  have broken : ((Cursor.ofSource "package\n/* x").afterAll
      [.require .package, .fail "late", .require .ident]).isBroken := by cbv
  obtain ⟨e, first, -, -, -, read, -⟩ := afterAll_of_isBroken _ _ broken
  have raised : ((Cursor.unread "package\n/* x").raisedBy
      [.advance, .require .package, .fail "late", .require .ident]).head? =
        some (.unexpectedEnd 2) := by cbv
  rw [raised] at first
  cases first
  exact ⟨broken, read⟩

end EnumGen
