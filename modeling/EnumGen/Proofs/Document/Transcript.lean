import EnumGen.Proofs.Document.Automaton
import EnumGen.Proofs.Document.Lockstep

/-!
# The transcript of a text

What is recorded while a text is read. A `Transcript` goes along with the tokens that are passed:
with each of them the next token is read and recorded, or the end of the input, or the failure that
stands there instead; behind a closing brace the enum type is recorded after that
(`Transcript.close`). From this follows what the records of one kind are, and where among them a
failure stands.

`Closes` says which enum types have been closed by the tokens that are passed, and `Ends` how a
transcript ends: behind the last token of a document, or with one failure at the item that the
grammar refuses (`Ends.split`).
-/

namespace EnumGen

open Grammar

/-! ## Records of one kind -/

namespace ParseEvent

/-- The token that was read, with the line on which it ends. -/
def pulled? : ParseEvent → Option (Token × Nat)
  | pulled n t => some (t, n)
  | _ => none

/-- The failure that was met. -/
def failed? : ParseEvent → Option ParseError
  | failed e => some e
  | _ => none

/-- The name of the enum type that was closed, with the number of its members. -/
def closed? : ParseEvent → Option (String × Nat)
  | closed name members => some (name, members)
  | _ => none

end ParseEvent

/-- The record that an enum type is closed. -/
def EnumType.record (e : EnumType) : ParseEvent :=
  .closed e.name e.members.length

namespace EnumType
variable (e : EnumType)

@[simp] lemma pulled?_record : e.record.pulled? = none := rfl

@[simp] lemma failed?_record : e.record.failed? = none := rfl

@[simp] lemma closed?_record : e.record.closed? = some (e.name, e.members.length) := rfl

end EnumType

namespace Lexed

/-- What is recorded where the first item is read. -/
def record (l : Lexed) : ParseEvent :=
  match l.tokens, l.failure with
  | (t, n) :: _, _ => .pulled n t
  | [], none => .pulled l.line .eof
  | [], some e => .failed (.ofLexError e)

/-- The tokens to be read, and behind them the end of the input unless reading fails there. -/
def pulls (l : Lexed) : List (Token × Nat) :=
  l.tokens ++ if l.failure = none then [(.eof, l.line)] else []

lemma pulled?_record (l : Lexed) : l.record.pulled? = l.pulls.head? := by
  obtain ⟨ts, failure, n⟩ := l
  cases ts <;> cases failure <;> rfl

lemma closed?_record (l : Lexed) : l.record.closed? = none := by
  obtain ⟨ts, failure, n⟩ := l
  cases ts <;> cases failure <;> rfl

lemma failed?_record_eq_none {l : Lexed} : l.record.failed? = none ↔ l.item ≠ .failure := by
  obtain ⟨ts, failure, n⟩ := l
  cases ts <;> cases failure <;> simp [record, item, ParseEvent.failed?]

lemma record_eq_failed {l : Lexed} {e : ParseError} (failed : l.record = .failed e) :
    l.item = .failure := by
  by_contra ne
  rw [← ne_eq, ← failed?_record_eq_none, failed] at ne
  cases ne

namespace Begins
variable {l m : Lexed} {u : List Token}

lemma snoc {t n} (b : l.Begins u (m.cons t n)) : l.Begins (u ++ [t]) m := by
  generalize e : m.cons t n = m' at b
  induction b with
  | nil =>
    subst e
    exact .cons .nil
  | cons _ ih => exact .cons (ih e)

/-- The tokens that come first are counted by where the others start. -/
lemma eq_drop (b : l.Begins u m) : m = l.drop u.length := by
  induction b with
  | nil => rfl
  | cons _ ih => exact ih

lemma head?_pulls (b : l.Begins u m) : m.pulls.head? = l.pulls[u.length]? := by
  induction b with
  | nil => exact List.head?_eq_getElem?
  | cons _ ih => exact ih

end Begins

end Lexed

/-! ## Transcripts -/

/-- While `l` is read, the tokens `u` have been passed, which close the enum types `es`, and this is
what has been recorded; `m` is ahead. -/
inductive Transcript (l : Lexed) :
    List Token → List EnumType → Lexed → List ParseEvent → Prop
  | start : Transcript l [] [] l [l.record]
  | pass {u es t n m log} : Transcript l u es (m.cons t n) log → t.kind ≠ .rbrace →
    Transcript l (u ++ [t]) es m (log ++ [m.record])
  | close {u es e t n m log} : Transcript l u es (m.cons t n) log → t.kind = .rbrace →
    Transcript l (u ++ [t]) (es ++ [e]) m (log ++ [m.record, e.record])

namespace Transcript
variable {l m : Lexed} {u : List Token} {es : List EnumType} {log : List ParseEvent}

lemma begins (tr : Transcript l u es m log) : l.Begins u m := by
  induction tr with
  | start => exact .nil
  | pass _ _ ih | close _ _ ih => exact ih.snoc

/-- One token has been read beyond those that are passed, or the end of the input. -/
lemma pulled (tr : Transcript l u es m log) :
    log.filterMap ParseEvent.pulled? = l.pulls.take (u.length + 1) := by
  have next {t : Token} {u : List Token} {m : Lexed} (b : l.Begins (u ++ [t]) m) :
      l.pulls.take ((u ++ [t]).length + 1) =
        l.pulls.take (u.length + 1) ++ m.record.pulled?.toList := by
    rw [List.take_add_one, m.pulled?_record, b.head?_pulls, List.length_append]
    rfl
  induction tr with
  | start =>
    rw [List.filterMap_cons, l.pulled?_record]
    cases l.pulls <;> rfl
  | @pass _ _ t n m _ tr _ ih =>
    rw [next tr.begins.snoc, List.filterMap_append, ih]
    cases h : m.record.pulled? <;> simp [h]
  | @close _ _ e t n m _ tr _ ih =>
    rw [next tr.begins.snoc, List.filterMap_append, ih]
    cases h : m.record.pulled? <;> simp [h]

/-- The enum types are recorded in the order in which they are closed. -/
lemma closed (tr : Transcript l u es m log) :
    log.filterMap ParseEvent.closed? = es.map fun e => (e.name, e.members.length) := by
  induction tr with
  | start => simp [Lexed.closed?_record]
  | pass _ _ ih => simp [ih, Lexed.closed?_record]
  | close _ _ ih => simp [ih, Lexed.closed?_record]

/-- No failure is recorded before the item that is read last. -/
lemma failed (tr : Transcript l u es m log) :
    log.filterMap ParseEvent.failed? = m.record.failed?.toList := by
  have none {t n} {m : Lexed} : (m.cons t n).record.failed?.toList = [] := rfl
  induction tr with
  | start => cases h : l.record.failed? <;> simp [h]
  | @pass _ _ _ _ m _ _ _ ih =>
    rw [List.filterMap_append, ih, none]
    cases h : m.record.failed? <;> simp [h]
  | @close _ _ _ _ _ m _ _ _ ih =>
    rw [List.filterMap_append, ih, none]
    cases h : m.record.failed? <;> simp [h]

/-- Behind the record of the item that is read last stands at most that of an enum type, namely of
one that the token before it closes. -/
lemma last (tr : Transcript l u es m log) :
    ∃ before after, log = before ++ m.record :: after ∧
      before.filterMap ParseEvent.failed? = [] ∧
      (after = [] ∨ ∃ d, es.getLast? = some d ∧ after = [d.record]) ∧
      (after ≠ [] ↔ u.getLast?.map Token.kind = some .rbrace) := by
  cases tr with
  | start => exact ⟨[], [], rfl, rfl, .inl rfl, by simp⟩
  | pass tr other => exact ⟨_, [], rfl, tr.failed, .inl rfl, by simp [other]⟩
  | close tr brace =>
    exact ⟨_, [_], rfl, tr.failed, .inr ⟨_, List.getLast?_concat, rfl⟩, by simp [brace]⟩

end Transcript

/-! ## Enum types that are closed -/

/-- The tokens close the enum types: those of the longest part that is a document, behind which no
closing brace stands. -/
inductive Closes : List Token → List EnumType → Prop
  | none {w} : (∀ t ∈ w, t.kind ≠ .rbrace) → Closes w []
  | some {d u w} : DocumentNode.Derives d u → (∀ t ∈ w, t.kind ≠ .rbrace) →
    Closes (u ++ w) d.document.enums

/-- Behind the name of the package only a closing brace leads to where a definition may start. -/
lemma Grammar.Position.eq_nil_of_run? {w : List Token} {p : Position}
    (behind : p ≠ .start ∧ p ≠ .packageName) (run : p.run? w = some .outside)
    (no : ∀ t ∈ w, t.kind ≠ .rbrace) : p = .outside ∧ w = [] := by
  induction w generalizing p with
  | nil =>
    cases run
    exact ⟨rfl, rfl⟩
  | cons t w ih =>
    rw [List.forall_mem_cons] at no
    obtain ⟨other, no⟩ := no
    rw [run?_cons] at run
    obtain ⟨q, may, rest⟩ := Option.bind_eq_some_iff.mp run
    have inner : (q ≠ .start ∧ q ≠ .packageName) ∧ q ≠ .outside := by
      clear run
      generalize t.kind = kind at may other
      cases p <;> cases kind <;> cases may <;> simp_all
    exact absurd (ih inner.1 rest no).1 inner.2

namespace Closes

lemma snoc {u es t} (cl : Closes u es) (other : t.kind ≠ .rbrace) : Closes (u ++ [t]) es := by
  have more {w : List Token} (no : ∀ t ∈ w, t.kind ≠ .rbrace) :
      ∀ t' ∈ w ++ [t], t'.kind ≠ .rbrace := by
    simpa [or_imp, forall_and, other] using no
  cases cl with
  | none no => exact .none (more no)
  | some dd no =>
    rw [List.append_assoc]
    exact .some dd (more no)

/-- A document that is the start of another one is the same if no closing brace stands behind it. -/
lemma eq_of_derives {u u' w w' d d'} (dd : DocumentNode.Derives d u)
    (dd' : DocumentNode.Derives d' u') (no : ∀ t ∈ w, t.kind ≠ .rbrace)
    (same : u ++ w = u' ++ w') (shorter : u.length ≤ u'.length) : d = d' := by
  have start : u' <+: u ++ w := by
    rw [same]
    exact List.prefix_append u' w'
  obtain ⟨x, rfl⟩ := List.prefix_of_prefix_length_le (List.prefix_append u w) start shorter
  rw [List.append_assoc] at same
  obtain rfl := List.append_cancel_left same
  have run := (Reaches.outside dd).append_iff.mp (.outside dd')
  have none := Position.eq_nil_of_run? (by simp) run fun t mem => no t (List.mem_append_left w' mem)
  rw [none.2, List.append_nil] at dd'
  exact dd.unique dd'

lemma eq_nil {u es} (cl : Closes u es) (no : ∀ t ∈ u, t.kind ≠ .rbrace) : es = [] := by
  cases cl with
  | none _ => rfl
  | some dd _ =>
    cases dd with
    | mk se =>
      have none := Position.eq_nil_of_run? (by simp) se.run_enums fun t mem => no t (by simp [mem])
      rw [none.2] at se
      rw [se.unique_enums .nil]
      rfl

/-- Tokens close certain enum types and no others. -/
lemma unique {v es es'} (cl : Closes v es) (cl' : Closes v es') : es = es' := by
  generalize is : v = v' at cl'
  cases cl with
  | none no =>
    subst is
    exact (cl'.eq_nil no).symm
  | @some d u w dd no =>
    cases cl' with
    | none no' =>
      subst is
      exact (Closes.some dd no).eq_nil no'
    | @some d' u' w' dd' no' =>
      obtain shorter | shorter := Nat.le_total u.length u'.length
      · rw [eq_of_derives dd dd' no is shorter]
      · rw [eq_of_derives dd' dd no' is.symm shorter]

lemma iff_eq {u es} (cl : Closes u es) (es' : List EnumType) : Closes u es' ↔ es' = es := by
  constructor
  · exact fun cl' => cl'.unique cl
  · rintro rfl
    exact cl

end Closes

/-! ## How a transcript ends -/

/-- Behind the tokens `u`, of which `told` is recorded, reading has come to an end at `m`, and this
is the whole record and the error. All has been read, or the grammar refuses the item that was read
last. Where this is a token or the end of the input, the failure is recorded behind it; where the
text ends inside a comment or a tag, the failure is recorded in place of the item. -/
inductive Ends (u : List Token) (m : Lexed) (told : List ParseEvent) :
    List ParseEvent → Option ParseError → Prop
  | whole : m.item = .eof → Ends u m told told none
  | misplaced {p e} : Reaches u p → p.Refuses m.item → m.item ≠ .failure →
    Ends u m told (told ++ [.failed e]) (some e)
  | cut {p e} : Reaches u p → m.record = .failed e → Ends u m told told (some e)

namespace Ends
variable {u : List Token} {m : Lexed} {told log : List ParseEvent} {e : ParseError}

lemma filterMap_eq {α : Type} {f : ParseEvent → Option α} {err} (ends : Ends u m told log err)
    (none : ∀ e, f (.failed e) = none) : log.filterMap f = told.filterMap f := by
  cases ends with
  | whole _ | cut _ _ => rfl
  | misplaced _ _ _ => simp [none]

lemma item_eq_eof (ends : Ends u m told log none) : m.item = .eof ∧ log = told := by
  cases ends with
  | whole item => exact ⟨item, rfl⟩

lemma refuses (ends : Ends u m told log (some e)) : ∃ p, Reaches u p ∧ p.Refuses m.item := by
  cases ends with
  | misplaced at' no _ => exact ⟨_, at', no⟩
  | cut at' failed =>
    rw [Lexed.record_eq_failed failed]
    exact ⟨_, at', trivial⟩

lemma log_eq (ends : Ends u m told log (some e)) :
    log = if m.item = .failure then told else told ++ [.failed e] := by
  cases ends with
  | misplaced _ _ ne => rw [if_neg ne]
  | cut _ failed => rw [if_pos (Lexed.record_eq_failed failed)]

/-- The failure is recorded once. At most the record of an enum type stands behind it, namely where
the failure stands in place of the item behind the brace that closes the enum type. -/
lemma split {l : Lexed} {es : List EnumType} (ends : Ends u m told log (some e))
    (tr : Transcript l u es m told) :
    ∃ before after, log = before ++ .failed e :: after ∧
      before.filterMap ParseEvent.failed? = [] ∧
      (after = [] ∨ ∃ d, es.getLast? = some d ∧ after = [d.record]) ∧
      (after ≠ [] ↔ m.item = .failure ∧ u.getLast?.map Token.kind = some .rbrace) := by
  cases ends with
  | misplaced _ _ ne =>
    have none : told.filterMap ParseEvent.failed? = [] := by
      rw [tr.failed, Lexed.failed?_record_eq_none.mpr ne]
      rfl
    exact ⟨told, [], rfl, none, .inl rfl, fun h => absurd rfl h, fun h => absurd h.1 ne⟩
  | cut _ failed =>
    obtain ⟨before, after, parts, first, one, iff⟩ := tr.last
    rw [failed] at parts
    exact ⟨before, after, parts, first, one,
      iff.trans (and_iff_right (Lexed.record_eq_failed failed)).symm⟩

end Ends

end EnumGen
