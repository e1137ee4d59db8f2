import EnumGen.Proofs.Document.Transcript

/-!
# The record of a parse

`Document.parseEvents` is the transcript of what the reader does. `Records` is the invariant of its
cursor: it stands behind tokens that lead to a place of the grammar, and its events are a transcript
of them. Each procedure goes on with that, or it stops where the item ahead is refused (`Follows`).
A step of a reading keeps the invariant or stops (`Recorded.step`), and so a whole run records all
that happens until it ends (`Recorded.run`). What this means for the records of each kind, and for
the one failure among them, is the main theorem (`transcript_parseEvents`).
-/

namespace EnumGen

open Grammar

namespace Cursor

/-! ## Matching a token -/

lemma advance_of_take? {c c' : Cursor} {k x} (taken : c.take? k = (some x, c')) :
    c' = c.advance := by
  unfold take? at taken
  split at taken <;> cases taken
  rfl

lemma advance_of_takeAny? {c c' : Cursor} {ks k} (taken : c.takeAny? ks = (some k, c')) :
    c' = c.advance := by
  unfold takeAny? at taken
  split at taken <;> cases taken
  rfl

/-- To go on is recorded with the item that is come to. -/
lemma events_advance {c : Cursor} (ok : c.error = none) :
    c.advance.events.toList = c.events.toList ++ [(Lexed.ofChars c.line c.stream.rest).record] := by
  rw [advance, isBroken_eq_false.mpr ok, TokenStream.pull]
  obtain ⟨t, n, r, h⟩ | ⟨e, n, h⟩ := scan_cases c.line c.stream.rest
  · rw [show scan c.stream.line c.stream.rest = _ from h, Lexed.ofChars_of_token h]
    simp [note, Lexed.record]
  · rw [show scan c.stream.line c.stream.rest = _ from h, Lexed.ofChars_of_ending h]
    cases e <;> simp [Ending.scan, latch, note, isBroken, ok, Lexed.record, Ending.failure]

lemma events_latch {c : Cursor} (ok : c.error = none) (e : ParseError) :
    (c.latch e).events.toList = c.events.toList ++ [.failed e] := by
  rw [latch, isBroken_eq_false.mpr ok]
  exact Array.toList_push

lemma Sees.record_of_error {c : Cursor} {m : Lexed} {e : ParseError} (s : c.Sees m)
    (err : c.error = some e) : m.record = .failed e := by
  cases s with
  | token ok _ | ended ok _ _ =>
    rw [err] at ok
    cases ok
  | failed err' =>
    rw [err] at err'
    cases err'
    rfl

lemma Sees.item_ne_failure {c : Cursor} {m : Lexed} (s : c.Sees m) (ok : c.error = none) :
    m.item ≠ .failure := by
  cases s with
  | token _ _ | ended _ _ _ => exact nofun
  | failed err =>
    rw [ok] at err
    cases err

/-! ## What a cursor has recorded -/

/-- While `l` is read, the cursor has come to `m` behind the tokens `u`, which lead to the place `p`
and close the enum types `es`, and it has recorded that. -/
structure Records (c : Cursor) (l : Lexed) (u : List Token) (es : List EnumType) (m : Lexed)
    (p : Position) : Prop where
  sees : c.Sees m
  at' : Reaches u p
  closes : Closes u es
  log : Transcript l u es m c.events.toList

/-- Reading has come to its end where the text says, and the cursor has recorded that. -/
def Ended (c : Cursor) (l : Lexed) (es : List EnumType) : Prop :=
  ∃ u m told, Closes u es ∧ Transcript l u es m told ∧ Ends u m told c.events.toList c.error

/-- Reading has ended with a failure. -/
def Stopped (c : Cursor) (l : Lexed) (es : List EnumType) : Prop :=
  (∃ e, c.error = some e) ∧ c.Ended l es

/-- A procedure has passed tokens that lead to the place, or it has stopped. -/
inductive Follows {α : Type} (l : Lexed) (es : List EnumType) (p : Position) :
    Option α × Cursor → Prop
  | passed {a c u m} : Records c l u es m p → Follows l es p (some a, c)
  | stopped {c} : c.Stopped l es → Follows l es p (none, c)

lemma records_ofSource (source : String) :
    (ofSource source).Records (Lexed.ofSource source) [] [] (Lexed.ofSource source) .start :=
  ⟨sees_ofSource source, .start, .none nofun, by
    rw [ofSource, ofStream, events_advance (c := ⟨.ofSource source, .eof, none, #[]⟩) rfl]
    exact .start⟩

namespace Records
variable {c : Cursor} {l m : Lexed} {u : List Token} {es : List EnumType} {p q : Position}

lemma pass {t n} (r : c.Records l u es (m.cons t n) p) (may : p.next? t.kind = some q)
    (other : t.kind ≠ .rbrace) : c.advance.Records l (u ++ [t]) es m q := by
  obtain ⟨ok, _, _, rest⟩ := r.sees.of_cons
  refine ⟨r.sees.advance, r.at'.next may, r.closes.snoc other, ?_⟩
  rw [events_advance ok, rest]
  exact r.log.pass other

/-- The closing brace of an enum type is passed, and then the enum type is recorded. -/
lemma close {z n} {e : EnumType} (r : c.Records l u es (m.cons ⟨.rbrace, z⟩ n) p)
    (may : p.next? .rbrace = some q) (closes : Closes (u ++ [⟨.rbrace, z⟩]) (es ++ [e])) :
    (c.advance.note e.record).Records l (u ++ [⟨.rbrace, z⟩]) (es ++ [e]) m q := by
  obtain ⟨ok, _, _, rest⟩ := r.sees.of_cons
  refine ⟨r.sees.advance.note, r.at'.next may, closes, ?_⟩
  have events : (c.advance.note e.record).events.toList =
      c.events.toList ++ [m.record, e.record] := by
    rw [Cursor.note, Array.toList_push, events_advance ok, rest, List.append_assoc]
    rfl
  rw [events]
  exact r.log.close rfl

/-- A cursor that has failed to read the next token has stopped. -/
lemma stopped {e} (r : c.Records l u es m p) (err : c.error = some e) : c.Stopped l es := by
  refine ⟨⟨e, err⟩, u, m, _, r.closes, r.log, ?_⟩
  rw [err]
  exact .cut r.at' (r.sees.record_of_error err)

/-- Where the item ahead is refused, the cursor stops if it fails. -/
lemma failExpecting (r : c.Records l u es m p) (no : p.Refuses m.item) (what : String) :
    (c.failExpecting what).Stopped l es := by
  rw [Cursor.failExpecting, fail]
  cases err : c.error with
  | some e =>
    rw [latch_of_error err]
    exact r.stopped err
  | none =>
    have latched := error_latch err (.misplaced c.line ("expected " ++ what ++ ", got " ++ c.found))
    refine ⟨⟨_, latched⟩, u, m, _, r.closes, r.log, ?_⟩
    rw [latched, events_latch err]
    exact .misplaced r.at' no (r.sees.item_ne_failure err)

/-- A token of the kind is ahead and is passed, or the cursor stays. -/
lemma take? (r : c.Records l u es m p) {k : TokenKind} (may : p.next? k = some q)
    (other : k ≠ .rbrace) :
    (∃ x c' m', c.take? k = (some x, c') ∧ c'.Records l (u ++ [⟨k, x⟩]) es m' q) ∨
      (¬m.Has k ∧ c.take? k = (none, c)) := by
  have eof : k ≠ .eof := by
    rintro rfl
    cases p <;> cases may
  obtain ⟨x, n, m', c', rfl, taken, _⟩ | stays := r.sees.take? eof
  · obtain rfl := advance_of_take? taken
    exact .inl ⟨x, _, m', taken, r.pass may other⟩
  · exact .inr stays

/-- Where only one kind may stand, a token of that kind is passed, or the cursor stops. -/
lemma require? (r : c.Records l u es m p) {k : TokenKind} (only : p.only? = some k)
    (may : p.next? k = some q) (eof : p = .outside → m.item ≠ .eof) :
    (∃ x c' m', c.require? k = (some x, c') ∧ c'.Records l (u ++ [⟨k, x⟩]) es m' q) ∨
      ∃ c', c.require? k = (none, c') ∧ c'.Stopped l es := by
  have other : k ≠ .rbrace := by
    rintro rfl
    cases p <;> cases only
  obtain ⟨x, c', m', taken, r'⟩ | ⟨no, stays⟩ := r.take? may other
  · refine .inl ⟨x, c', m', ?_, r'⟩
    rw [Cursor.require?, taken]
  · refine .inr ⟨_, ?_, r.failExpecting (Lexed.refused_of_only only eof no) k.describe⟩
    rw [Cursor.require?, stays]

/-! ## The procedures of the reader -/

lemma base? (r : c.Records l u es m .base) : Follows l es .inside c.base? := by
  obtain ⟨x₁, c₁, m₁, e₁, r₁⟩ | ⟨no₁, e₁⟩ := r.take? (k := .lbrace) rfl (by decide)
  · rw [Cursor.base?, e₁]
    exact .passed r₁
  obtain ⟨t, x₂, n₂, m₂, c₂, rfl, e₂, _⟩ | ⟨no₂, e₂⟩ := r.sees.takeAny?_ints
  · obtain rfl := advance_of_takeAny? e₂
    have r₂ : c.advance.Records l (u ++ [⟨.int t, x₂⟩]) es m₂ .brace := r.pass rfl (by simp)
    obtain ⟨x₃, c₃, m₃, e₃, r₃⟩ | ⟨c₃, e₃, stop⟩ := r₂.require? rfl rfl (by simp)
    · simp only [Cursor.base?, e₁, e₂, e₃]
      exact .passed r₃
    · simp only [Cursor.base?, e₁, e₂, e₃]
      exact .stopped stop
  · simp only [Cursor.base?, e₁, e₂]
    exact .stopped (r.failExpecting (Lexed.base_refuses no₁ no₂) _)

lemma header? (r : c.Records l u es m .outside) (more : m.item ≠ .eof) :
    Follows l es .inside c.header? := by
  obtain ⟨x₁, c₁, m₁, e₁, r₁⟩ | ⟨c₁, e₁, stop⟩ := r.require? rfl rfl fun _ => more
  case inr =>
    rw [Cursor.header?, e₁]
    exact .stopped stop
  obtain ⟨x₂, c₂, m₂, e₂, r₂⟩ | ⟨c₂, e₂, stop⟩ := r₁.require? rfl rfl (by simp)
  case inr =>
    simp only [Cursor.header?, e₁, e₂]
    exact .stopped stop
  obtain ⟨x₃, c₃, m₃, e₃, r₃⟩ | ⟨c₃, e₃, stop⟩ := r₂.require? rfl rfl (by simp)
  case inr =>
    simp only [Cursor.header?, e₁, e₂, e₃]
    exact .stopped stop
  have base := r₃.base?
  simp only [Cursor.header?, e₁, e₂, e₃]
  generalize c₃.base? = result at base
  cases base with
  | passed r' => exact .passed r'
  | stopped stop => exact .stopped stop

lemma member? (r : c.Records l u es m p) (inside : p.IsInside) (tag : p = .named → ¬m.Has .tag)
    (brace : ¬m.Has .rbrace) (more : m.item ≠ .eof) : ∃ q, Follows l es q c.member? := by
  have may : p.next? .ident = some .named := by obtain rfl | rfl := inside <;> rfl
  obtain ⟨x₁, c₁, m₁, e₁, r₁⟩ | ⟨no, e₁⟩ := r.take? (k := .ident) may (by decide)
  · have e₁' : c.require? .ident = (some x₁, c₁) := by rw [Cursor.require?, e₁]
    obtain ⟨x₂, c₂, m₂, e₂, r₂⟩ | ⟨_, e₂⟩ := r₁.take? (k := .tag) rfl (by decide)
    · simp only [Cursor.member?, e₁', e₂]
      exact ⟨_, .passed r₂⟩
    · simp only [Cursor.member?, e₁', e₂]
      exact ⟨_, .passed r₁⟩
  · have e₁' : c.require? .ident = (none, c.failExpecting TokenKind.ident.describe) := by
      rw [Cursor.require?, e₁]
    rw [Cursor.member?, e₁']
    exact ⟨p, .stopped (r.failExpecting (Lexed.refused_of_isInside inside no tag brace more) _)⟩

end Records

end Cursor

/-! ## Files that are half read -/

lemma Lexed.Begins.append {l m k : Lexed} {u v} (b : l.Begins u m) (b' : m.Begins v k) :
    l.Begins (u ++ v) k := by
  induction b with
  | nil => exact b'
  | cons _ ih => exact .cons (ih b')

/-- What is left over tells what has been passed. -/
lemma Lexed.Begins.unique {l m m' : Lexed} {u u'} (b : l.Begins u m) (b' : l.Begins u' m')
    (same : m.tokens = m'.tokens) : u = u' ∧ m = m' := by
  have e : u = u' := by
    have tokens := b.tokens.1.symm.trans b'.tokens.1
    rw [same] at tokens
    exact List.append_cancel_right tokens
  subst e
  exact ⟨rfl, b.eq_drop.trans b'.eq_drop.symm⟩

lemma Cursor.Sees.tokens_eq {c : Cursor} {m m' : Lexed} (s : c.Sees m) (s' : c.Sees m') :
    m.tokens = m'.tokens := by
  by_cases broken : c.isBroken
  · have none {l : Lexed} (s : c.Sees l) : l.tokens = [] := by
      cases s with
      | token ok _ => simp [Cursor.isBroken, ok] at broken
      | ended _ _ _ | failed _ => rfl
    rw [none s, none s']
  · rw [s.eq_ahead broken, s'.eq_ahead broken]

namespace Reading

/-- The reading stands behind tokens that its cursor has recorded. -/
structure Recorded (r : Reading) (l : Lexed) (u : List Token) (m : Lexed) : Prop where
  stands : r.Stands u m
  records : ∃ p, r.cursor.Records l u r.enums.toList m p

/-- While `l` is read, what happens is recorded, and reading can go on or has stopped. -/
inductive Logs (l : Lexed) (r : Reading) : Prop
  | on {u m} : r.Recorded l u m → Logs l r
  | stopped : r.cursor.Stopped l r.enums.toList → Logs l r

lemma Stands.derives {r : Reading} {u l} (st : r.Stands u l) (opened : r.opened = none) :
    ∃ d, DocumentNode.Derives d u ∧ r.document = d.document := by
  cases st with
  | outside _ dd doc _ => exact ⟨_, dd, doc⟩
  | inside opened' =>
    rw [opened] at opened'
    cases opened'

/-- Where a step passes tokens and records them, they are those that the grammar goes on with. -/
lemma logs_of_goes {r : Reading} {l u m u' m' p} (begins : l.Begins u m) (goes : Goes u m r)
    (k : r.cursor.Records l u' r.enums.toList m' p) : Logs l r := by
  cases goes with
  | on begins' st =>
    obtain ⟨rfl, rfl⟩ := (begins.append begins').unique k.log.begins (st.sees.tokens_eq k.sees)
    exact .on ⟨st, p, k⟩
  | failed err _ => exact .stopped (k.stopped err)

lemma logs_stepOutside {r : Reading} {l u m}
    (k : r.cursor.Records l u r.enums.toList m .outside) (goes : Goes u m r.stepOutside)
    (more : m.item ≠ .eof) : Logs l r.stepOutside := by
  have header := k.header? more
  dsimp only [stepOutside] at goes ⊢
  generalize r.cursor.header? = result at header goes ⊢
  cases header with
  | passed k' => exact logs_of_goes k.log.begins goes k'
  | stopped stop => exact .stopped stop

/-- With the closing brace of a definition its enum type is recorded. -/
lemma logs_close {r : Reading} {l u m z n p} {o : OpenEnum}
    (k : r.cursor.Records l u r.enums.toList (m.cons ⟨.rbrace, z⟩ n) p)
    (may : p.next? .rbrace = some .outside)
    (st : Stands ⟨r.cursor.advance.note o.close.record, r.package, r.enums.push o.close, none⟩
      (u ++ [⟨.rbrace, z⟩]) m) :
    Logs l ⟨r.cursor.advance.note o.close.record, r.package, r.enums.push o.close, none⟩ := by
  obtain ⟨d, dd, doc⟩ := st.derives rfl
  have closes : Closes (u ++ [⟨.rbrace, z⟩] ++ []) d.document.enums := .some dd nofun
  rw [← doc, List.append_nil] at closes
  refine .on ⟨st, .outside, ?_⟩
  rw [Array.toList_push]
  exact k.close may (by simpa [document] using closes)

/-- Every step of a reading is recorded. -/
lemma Recorded.step {r : Reading} {l u m} (k : r.Recorded l u m) (more : ¬r.isOver) :
    Logs l r.step := by
  obtain ⟨st, p, k⟩ := k
  have goes := st.step more
  simp only [isOver, Bool.or_eq_true, Bool.and_eq_true, not_or, not_and] at more
  obtain ⟨ok, more⟩ := more
  cases st with
  | outside opened dd doc s =>
    obtain rfl := k.at'.unique (.outside dd)
    rw [Reading.step, opened] at goes ⊢
    exact logs_stepOutside k goes fun e => more (by rw [opened]; rfl) ((s.isEof_iff ok).mpr e)
  | @inside o d u x n y b v ms w _ opened dd doc db sm close s tag =>
    obtain rfl := k.at'.unique (.body dd db sm)
    have inside : (bodyPosition ms).IsInside := foldl_position_isInside ms (.inl rfl)
    rw [Reading.step, opened] at goes ⊢
    dsimp only [stepInside] at goes ⊢
    obtain ⟨z, n, m', c', rfl, e₁, s'⟩ | ⟨no, e₁⟩ := s.take? (k := .rbrace) (by decide)
    · obtain rfl := Cursor.advance_of_take? e₁
      have now : ¬r.cursor.current.isEof := by
        intro h
        cases (s.isEof_iff ok).mp h
      rw [if_neg now, e₁]
      exact logs_close k inside.next?_rbrace (stands_close dd doc db sm close s'.note)
    · by_cases now : r.cursor.current.isEof
      · -- The closing brace is asked for only to fail.
        have refused : (bodyPosition ms).Refuses m.item := by
          rw [(s.isEof_iff ok).mp now]
          exact inside.refuses_eof
        rw [if_pos now, Cursor.require?, e₁]
        exact .stopped (k.failExpecting refused _)
      · obtain ⟨q, member⟩ := k.member? inside tag no fun e => now ((s.isEof_iff ok).mpr e)
        rw [if_neg now, e₁] at goes ⊢
        dsimp only at goes ⊢
        generalize r.cursor.member? = result at member goes ⊢
        cases member with
        | passed k' => exact logs_of_goes k.log.begins goes k'
        | stopped stop => exact .stopped stop

/-- A reading that is over has read a whole document, or it has failed to read the next token. -/
lemma Recorded.ended {r : Reading} {l u m} (k : r.Recorded l u m) (fin : r.isOver) :
    r.cursor.Ended l r.enums.toList := by
  obtain ⟨st, p, k⟩ := k
  cases err : r.cursor.error with
  | some e => exact (k.stopped err).2
  | none =>
    have ok := Cursor.isBroken_eq_false.mpr err
    simp only [isOver, ok, Bool.false_or, Bool.and_eq_true] at fin
    refine ⟨u, m, _, k.closes, k.log, ?_⟩
    rw [err]
    exact .whole ((k.sees.isEof_iff (Bool.eq_false_iff.mp ok)).mp fin.2)

/-- A whole run is recorded to its end. -/
lemma Recorded.run {r : Reading} {l u m} (k : r.Recorded l u m) :
    r.run.cursor.Ended l r.run.enums.toList := by
  induction r using Reading.run.induct generalizing u m with
  | case1 r fin =>
    rw [Reading.run, if_pos fin]
    exact k.ended fin
  | case2 r more ih =>
    rw [Reading.run, if_neg more]
    cases k.step more with
    | on k' => exact ih k'
    | stopped stop =>
      obtain ⟨⟨e, err⟩, ended⟩ := stop
      rw [run_of_error err]
      exact ended

end Reading

/-! ## Whole documents -/

/-- A document is read to the end, and all that happens is recorded. -/
lemma Cursor.Records.readDocument {c : Cursor} {l : Lexed} (r : c.Records l [] [] l .start) :
    c.readDocument.2.Ended l c.readDocument.1.enums := by
  obtain ⟨x, c₁, m₁, e₁, r₁⟩ | ⟨c₁, e₁, stop⟩ := r.require? rfl rfl (by simp)
  case inr =>
    -- The name is asked for all the same, which changes nothing any more.
    obtain ⟨⟨e, err⟩, ended⟩ := stop
    rw [Cursor.readDocument, e₁, require?_of_error err]
    exact ended
  obtain ⟨p, c₂, m₂, e₂, r₂⟩ | ⟨c₂, e₂, stop⟩ := r₁.require? rfl rfl (by simp)
  case inr =>
    simp only [Cursor.readDocument, e₁, e₂]
    exact stop.2
  simp only [Cursor.readDocument, e₁, e₂]
  have stands : Reading.Stands ⟨c₂, p, #[], none⟩ [⟨.package, x⟩, ⟨.ident, p⟩] m₂ :=
    .outside (d := ⟨p, []⟩) rfl (.mk .nil) rfl r₂.sees
  have recorded : Reading.Recorded ⟨c₂, p, #[], none⟩ l _ m₂ := ⟨stands, _, r₂⟩
  exact recorded.run

/-- The tokens that are passed in a divided text are those of its first pieces. -/
lemma exists_pieces_of_begins {s ps last e u m} (b : (Lexed.ofChars 1 s).Begins u m)
    (d : Divides s ps last e) :
    ∃ qs rs, ps = qs ++ rs ∧ u = qs.map Piece.token ∧ (items rs e).head? = some m.item := by
  rw [d.ofChars] at b
  obtain ⟨tokens, failure⟩ := b.tokens
  dsimp only at tokens failure
  rw [map_fst_numbered] at tokens
  obtain ⟨qs, rs, rfl, rfl, left⟩ := List.map_eq_append_iff.mp tokens
  refine ⟨qs, rs, rfl, rfl, ?_⟩
  have same : m.items = items rs e := by
    have map : m.tokens.map (fun p => Item.token p.1) = (m.tokens.map Prod.fst).map .token := by
      rw [List.map_map]
      rfl
    rw [Lexed.items, map, ← left, ← failure, List.map_map, items]
    cases e <;> rfl
  obtain ⟨is, first⟩ := m.items_eq_cons
  rw [← same, first]
  rfl

/-- Of a divided text its tokens are read, and then its end unless it is cut short. -/
lemma Divides.pulls {s ps last e} (d : Divides s ps last e) :
    (Lexed.ofChars 1 s).pulls =
      numbered 1 ps ++ if e = Ending.closed then [(Token.eof, 1 + newlines s)] else [] := by
  rw [d.ofChars]
  cases e <;> rfl

lemma head?_items_eq_eof {rs : List Piece} {e : Ending} :
    (items rs e).head? = some .eof ↔ rs = [] ∧ e = .closed := by
  cases rs <;> cases e <;> simp [items, Item.ofEnding]

lemma head?_items_eq_failure {rs : List Piece} {e : Ending} :
    (items rs e).head? = some .failure ↔ rs = [] ∧ e = .cut := by
  cases rs <;> cases e <;> simp [items, Item.ofEnding]

/-- The record of a parse tells what was done. The tokens that are passed, those of `qs`, close the
enum types `es` and no others, and what is recorded is the transcript of that. So the items that are
read are the tokens in order, each with the line on which it ends, up to the one behind `qs`; the end
of the input is read only behind all of them, and only once. The enum types that are recorded are
those that are closed.

A document is read whole, declares just these enum types, and no failure is recorded. If there is
none, then the item behind `qs` is the first that does not fit, and its error is the only one that
is recorded. It stands at the end of the record, unless the text is cut short right behind the brace
that closes an enum type: then the record of this enum type comes last. Nothing else follows the
error. -/
theorem transcript_parseEvents (source : String) :
    ∃ qs rs last e es told, Divides source.toList (qs ++ rs) last e ∧
      (∀ es', Closes (qs.map Piece.token) es' ↔ es' = es) ∧
      Transcript (Lexed.ofSource source) (qs.map Piece.token) es
        ((Lexed.ofSource source).drop qs.length) told ∧
      let log := (Document.parseEvents source).toList
      log.filterMap ParseEvent.pulled? = (numbered 1 (qs ++ rs) ++
        if e = Ending.closed then [(Token.eof, 1 + newlines source.toList)] else []).take
          (qs.length + 1) ∧
      log.filterMap ParseEvent.closed? = es.map (fun d => (d.name, d.members.length)) ∧
      (∀ d ∈ es, d.record.message =
        "parsed enum " ++ d.name ++ " (" ++ toString d.members.length ++ " enumerators)") ∧
      match Document.parse source with
      | .ok doc =>
        rs = [] ∧ e = .closed ∧ doc.enums = es ∧ log = told ∧ log.filterMap ParseEvent.failed? = []
      | .error err =>
        IsLeast {n | ¬Viable ((items (qs ++ rs) e).take n)} (qs.length + 1) ∧
          log = (if rs = [] ∧ e = .cut then told else told ++ [.failed err]) ∧
          (ParseEvent.failed err).message = "parse failed: " ++ err.message ∧
          ∃ before after, log = before ++ .failed err :: after ∧
            before.filterMap ParseEvent.failed? = [] ∧
            (after = [] ∨ ∃ d, es.getLast? = some d ∧ after = [d.record]) ∧
            (after ≠ [] ↔
              rs = [] ∧ e = .cut ∧ qs.getLast?.map (·.token.kind) = some .rbrace) := by
  obtain ⟨ps, last, e, d⟩ := exists_divides source.toList
  obtain ⟨u, m, told, closes, tr, ends⟩ := (Cursor.records_ofSource source).readDocument
  obtain ⟨qs, rs, rfl, rfl, head⟩ := exists_pieces_of_begins tr.begins d
  have failure : m.item = .failure ↔ rs = [] ∧ e = .cut := by
    rw [← head?_items_eq_failure, head, Option.some_inj]
  have behind : m = (Lexed.ofSource source).drop qs.length := by
    rw [tr.begins.eq_drop, List.length_map]
  refine ⟨qs, rs, last, e, _, told, d, closes.iff_eq, by rwa [← behind], ?_⟩
  intro log
  change Ends _ m told log _ at ends
  refine ⟨?_, ?_, fun _ _ => rfl, ?_⟩
  · rw [ends.filterMap_eq fun _ => rfl, tr.pulled, List.length_map, ← d.pulls]
    rfl
  · rw [ends.filterMap_eq fun _ => rfl, tr.closed]
  · rw [Document.parse, Cursor.parseDocument]
    cases err : (Cursor.ofSource source).readDocument.2.error with
    | none =>
      simp only [Cursor.finish, err]
      rw [err] at ends
      obtain ⟨item, same⟩ := ends.item_eq_eof
      have read : m.item ≠ .failure := by
        rw [item]
        simp
      obtain ⟨rfl, rfl⟩ := head?_items_eq_eof.mp (head.trans (congrArg some item))
      refine ⟨rfl, rfl, trivial, same, ?_⟩
      rw [same, tr.failed, Lexed.failed?_record_eq_none.mpr read]
      rfl
    | some f =>
      simp only [Cursor.finish, err]
      rw [err] at ends
      obtain ⟨p, at', no⟩ := ends.refuses
      obtain ⟨before, after, parts, first, one, iff⟩ := ends.split tr
      refine ⟨at'.isLeast no head, ?_, rfl, before, after, parts, first, one, ?_⟩
      · rw [ends.log_eq]
        simp only [failure]
      · rw [iff, failure, List.getLast?_map, Option.map_map, and_assoc]
        rfl

-- The comment that is not closed is met before the enum type is recorded, and after its brace.
example : (Document.parseEvents "package p type T enum \x7b A\n\x7d /*").toList.drop 6 =
    [.pulled 1 ⟨.ident, "A"⟩, .pulled 2 ⟨.rbrace, "\x7d"⟩, .failed (.unexpectedEnd 2),
      .closed "T" 1] := by
  cbv

end EnumGen
