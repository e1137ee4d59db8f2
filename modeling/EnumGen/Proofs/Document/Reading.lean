import EnumGen.Proofs.Document.Ahead

/-!
# Reading follows the grammar

What each procedure of the reader does is told by what is ahead of the cursor and by what the
tokens before it derive. It either passes tokens that one node of the grammar derives, or it fails
where the tokens stop being the start of a document (`Fails`). `Stands` is the invariant of a file
that is half read: what has been declared so far is what the tokens up to here derive. A step keeps
it or fails (`Stands.step`), and so does a whole run (`Stands.run`). Hence a cursor on its first
token reads a document from what is ahead just if the grammar derives it
(`Cursor.Sees.parseDocument`).
-/

namespace EnumGen

open Grammar

/-- The tokens come first, and then the others. -/
inductive Lexed.Begins : Lexed → List Token → Lexed → Prop
  | nil {l} : Begins l [] l
  | cons {l l' : Lexed} {t n ts} : Begins l ts l' → Begins (l.cons t n) (t :: ts) l'

/-- Behind the tokens `u`, what is ahead stops being the start of a document, and `e` is the error
that is due at that place. -/
inductive Fails : List Token → Lexed → ParseError → Prop
  | here {u l p} : Reaches u p → p.Refuses l.item → Fails u l (l.misfit (p.expected l.item))
  | later {u t n l e} : Fails (u ++ [t]) l e → Fails u (l.cons t n) e

lemma Lexed.Begins.tokens {l m : Lexed} {u} (b : l.Begins u m) :
    l.tokens.map Prod.fst = u ++ m.tokens.map Prod.fst ∧ l.failure = m.failure := by
  induction b with
  | nil => exact ⟨rfl, rfl⟩
  | cons _ ih => exact ⟨congrArg _ ih.1, ih.2⟩

lemma Lexed.Begins.fails {l m : Lexed} {u v e} (b : l.Begins v m) (f : Fails (u ++ v) m e) :
    Fails u l e := by
  induction b generalizing u with
  | nil => simpa using f
  | cons _ ih =>
    apply Fails.later
    apply ih
    simpa using f

/-- A place refuses what is ahead if none of the kinds that may stand there is in front. -/
lemma Lexed.refused {l : Lexed} {p : Position} (eof : p = .outside → l.item ≠ .eof)
    (no : ∀ kind, p.next? kind ≠ none → ¬l.Has kind) : p.Refuses l.item := by
  cases e : l.item with
  | token t =>
    by_contra stands
    exact no t.kind stands ⟨t.lexeme, e⟩
  | eof => exact fun out => eof out e
  | failure => trivial

/-- The kind of token that has to stand at a place, if only one may. -/
def Grammar.Position.only? : Position → Option TokenKind
  | .start => some .package
  | .packageName | .typeName => some .ident
  | .outside => some .type
  | .enumWord => some .enum
  | .brace => some .lbrace
  | .base | .inside | .named => none

lemma Grammar.Position.eq_of_only? {p : Position} {k kind} (only : p.only? = some k)
    (may : p.next? kind ≠ none) : kind = k := by
  cases p <;> cases only <;> cases kind <;> first | rfl | exact absurd rfl may

lemma Grammar.Position.expected_of_only? {p : Position} {k i} (only : p.only? = some k) :
    p.expected i = k.describe := by
  cases p <;> cases only <;> rfl

lemma Lexed.refused_of_only {l : Lexed} {p : Position} {k} (only : p.only? = some k)
    (eof : p = .outside → l.item ≠ .eof) (no : ¬l.Has k) : p.Refuses l.item := by
  refine Lexed.refused eof ?_
  intro kind may
  rw [Position.eq_of_only? only may]
  exact no

lemma Lexed.base_refuses {l : Lexed} (brace : ¬l.Has .lbrace) (int : ∀ t, ¬l.Has (.int t)) :
    Position.base.Refuses l.item := by
  refine Lexed.refused nofun ?_
  intro kind may
  cases kind <;> first | exact brace | exact int _ | exact absurd rfl may

lemma Lexed.refused_of_isInside {l : Lexed} {p : Position} (inside : p.IsInside)
    (name : ¬l.Has .ident) (tag : p = .named → ¬l.Has .tag) (brace : ¬l.Has .rbrace)
    (more : l.item ≠ .eof) : p.Refuses l.item := by
  refine Lexed.refused (fun _ => more) ?_
  intro kind may
  obtain rfl | rfl := inside
  · cases kind <;> first | exact name | exact brace | exact absurd rfl may
  · cases kind <;> first | exact name | exact brace | exact tag rfl | exact absurd rfl may

lemma Grammar.Position.IsInside.refuses_eof {p : Position} (inside : p.IsInside) :
    p.Refuses .eof := by
  obtain rfl | rfl := inside <;> exact nofun

lemma Grammar.Position.IsInside.next?_rbrace {p : Position} (inside : p.IsInside) :
    p.next? .rbrace = some .outside := by
  obtain rfl | rfl := inside <;> rfl

/-- A procedure has passed tokens and produced what `D` relates to them and to what is behind
them, or it has failed where the grammar does. -/
inductive Outcome {α : Type} (u : List Token) (l : Lexed) (D : α → List Token → Lexed → Prop) :
    Option α × Cursor → Prop
  | passed {a v m c} : l.Begins v m → D a v m → c.Sees m → Outcome u l D (some a, c)
  | failed {c e} : c.error = some e → Fails u l e → Outcome u l D (none, c)

namespace Cursor.Sees
variable {c : Cursor} {l : Lexed}

lemma isEof_iff (s : c.Sees l) (ok : ¬c.isBroken) : c.current.isEof ↔ l.item = .eof := by
  cases s with
  | token _ now => exact ⟨fun h => absurd h now, nofun⟩
  | ended _ now _ => exact ⟨fun _ => rfl, fun _ => now⟩
  | failed err => exact absurd (by simp [isBroken, err]) ok

lemma note (s : c.Sees l) {e : ParseEvent} : (c.note e).Sees l := by
  cases s with
  | token ok now => exact .token (c := Cursor.note _ _) ok now
  | ended ok now none => exact .ended (c := Cursor.note _ _) ok now none
  | failed err => exact .failed err

/-- Where only one kind may stand, a token of that kind is passed, or reading fails here. -/
lemma require?_only {u p k} (s : c.Sees l) (at' : Reaches u p) (only : p.only? = some k)
    (eof : p = .outside → l.item ≠ .eof) :
    (∃ x n l' c', l = l'.cons ⟨k, x⟩ n ∧ c.require? k = (some x, c') ∧ c'.Sees l') ∨
      (∃ c' e, c.require? k = (none, c') ∧ c'.error = some e ∧ Fails u l e) := by
  have token : k ≠ .eof := by
    rintro rfl
    cases p <;> cases only
  obtain passed | ⟨no, c', stays, err⟩ := s.require? token
  · exact .inl passed
  · rw [← Position.expected_of_only? (i := l.item) only] at err
    exact .inr ⟨c', _, stays, err, .here at' (Lexed.refused_of_only only eof no)⟩

/-- Behind `enum`, the base of an enum type is read. -/
lemma base? {d u x n y} (s : c.Sees l) (dd : DocumentNode.Derives d u) :
    Outcome (u ++ [⟨.type, x⟩, ⟨.ident, n⟩, ⟨.enum, y⟩]) l
      (fun t v _ => ∃ b, BaseNode.Derives b v ∧ b.type = t) c.base? := by
  obtain ⟨x₁, n₁, l₁, c₁, rfl, e₁, s₁⟩ | ⟨no₁, e₁⟩ := s.take? (k := .lbrace) nofun
  · rw [Cursor.base?, e₁]
    exact .passed (.cons .nil) ⟨_, .omitted, rfl⟩ s₁
  obtain ⟨t, x₂, n₂, l₂, c₂, rfl, e₂, s₂⟩ | ⟨no₂, e₂⟩ := s.takeAny?_ints
  · have at' : Reaches (u ++ [⟨.type, x⟩, ⟨.ident, n⟩, ⟨.enum, y⟩] ++ [⟨.int t, x₂⟩]) .brace := by
      rw [List.append_assoc]
      exact .brace dd
    obtain ⟨x₃, n₃, l₃, c₃, rfl, e₃, s₃⟩ | ⟨c₃, e, e₃, err, f⟩ := s₂.require?_only at' rfl nofun
    · simp only [Cursor.base?, e₁, e₂, e₃]
      exact .passed (.cons (.cons .nil)) ⟨_, .named, rfl⟩ s₃
    · simp only [Cursor.base?, e₁, e₂, e₃]
      exact .failed err (.later f)
  · -- Neither attempt has moved the cursor, so it fails with what is ahead of the base.
    simp only [Cursor.base?, e₁, e₂]
    refine .failed (s.error_failExpecting _) ?_
    exact .here (p := .base) (.base dd) (Lexed.base_refuses no₁ no₂)

/-- Where a definition may start, it is read up to its opening brace. -/
lemma header? {d u} (s : c.Sees l) (dd : DocumentNode.Derives d u) (more : l.item ≠ .eof) :
    Outcome u l
      (fun o v _ => ∃ x n y b w, v = ⟨.type, x⟩ :: ⟨.ident, n⟩ :: ⟨.enum, y⟩ :: w ∧
        BaseNode.Derives b w ∧ o = ⟨n, b.type, #[]⟩) c.header? := by
  obtain ⟨x, n₁, l₁, c₁, rfl, e₁, s₁⟩ | ⟨c₁, e, e₁, err, f⟩ :=
    s.require?_only (.outside dd) rfl fun _ => more
  case inr =>
    rw [Cursor.header?, e₁]
    exact .failed err f
  obtain ⟨n, n₂, l₂, c₂, rfl, e₂, s₂⟩ | ⟨c₂, e, e₂, err, f⟩ :=
    s₁.require?_only (.typeName (l := x) dd) rfl nofun
  case inr =>
    simp only [Cursor.header?, e₁, e₂]
    exact .failed err (.later f)
  obtain ⟨y, n₃, l₃, c₃, rfl, e₃, s₃⟩ | ⟨c₃, e, e₃, err, f⟩ :=
    s₂.require?_only (.enumWord (l := x) (n := n) dd) rfl nofun
  case inr =>
    simp only [Cursor.header?, e₁, e₂, e₃]
    have begins : Lexed.Begins ((l₂.cons ⟨.ident, n⟩ n₂).cons ⟨.type, x⟩ n₁)
        [⟨.type, x⟩, ⟨.ident, n⟩] l₂ := .cons (.cons .nil)
    exact .failed err (begins.fails f)
  have base : Outcome (u ++ [⟨.type, x⟩, ⟨.ident, n⟩, ⟨.enum, y⟩]) l₃ _ c₃.base? := s₃.base? dd
  simp only [Cursor.header?, e₁, e₂, e₃]
  generalize c₃.base? = r at base
  cases base with
  | passed begins derives s' =>
    obtain ⟨b, db, rfl⟩ := derives
    exact .passed (.cons (.cons (.cons begins))) ⟨x, n, y, b, _, rfl, db, rfl⟩ s'
  | failed err f =>
    have begins : Lexed.Begins (((l₃.cons ⟨.enum, y⟩ n₃).cons ⟨.ident, n⟩ n₂).cons ⟨.type, x⟩ n₁)
        [⟨.type, x⟩, ⟨.ident, n⟩, ⟨.enum, y⟩] l₃ := .cons (.cons (.cons .nil))
    exact .failed err (begins.fails f)

/-- Inside the braces, a member is read with its tag, and no further tag stands behind it. -/
lemma member? {u p} (s : c.Sees l) (at' : Reaches u p) (inside : p.IsInside)
    (tag : p = .named → ¬l.Has .tag) (brace : ¬l.Has .rbrace) (more : l.item ≠ .eof) :
    Outcome u l
      (fun m v l' => ∃ n, MemberNode.Derives n v ∧ n.member = m ∧
        (n.position = .named → ¬l'.Has .tag)) c.member? := by
  obtain ⟨n, n₁, l₁, c₁, rfl, e₁, s₁⟩ | ⟨no, c₁, e₁, err⟩ := s.require? (k := .ident) nofun
  · obtain ⟨t, n₂, l₂, c₂, rfl, e₂, s₂⟩ | ⟨no, e₂⟩ := s₁.take? (k := .tag) nofun
    · simp only [Cursor.member?, e₁, e₂]
      exact .passed (.cons (.cons .nil)) ⟨_, .tagged, rfl, nofun⟩ s₂
    · simp only [Cursor.member?, e₁, e₂]
      exact .passed (.cons .nil) ⟨_, .plain, rfl, fun _ => no⟩ s₁
  · rw [Cursor.member?, e₁]
    have expected : p.expected l.item = TokenKind.describe .ident := by
      obtain rfl | rfl := inside <;> exact if_neg more
    rw [← expected] at err
    exact .failed err (.here at' (Lexed.refused_of_isInside inside no tag brace more))

end Cursor.Sees

/-! ## Files that are half read -/

namespace Reading

/-- The tokens `u` have been read, and what has been declared is what they derive; `l` is ahead.
Behind the name of a member no tag is ahead, since it would have been read with the member. -/
inductive Stands : Reading → List Token → Lexed → Prop
  | outside {r d u l} : r.opened = none → DocumentNode.Derives d u → r.document = d.document →
    r.cursor.Sees l → Stands r u l
  | inside {r o d u x n y b v ms w l} : r.opened = some o → DocumentNode.Derives d u →
    r.document = d.document → BaseNode.Derives b v → Star MemberNode.Derives ms w →
    o.close = EnumNode.enumType ⟨n, b, ms⟩ → r.cursor.Sees l →
    (bodyPosition ms = .named → ¬l.Has .tag) →
    Stands r (u ++ (⟨.type, x⟩ :: ⟨.ident, n⟩ :: ⟨.enum, y⟩ :: (v ++ w))) l

/-- Reading goes on behind further tokens, or it has failed where the grammar does. -/
inductive Goes (u : List Token) (l : Lexed) (r : Reading) : Prop
  | on {v m} : l.Begins v m → r.Stands (u ++ v) m → Goes u l r
  | failed {e} : r.cursor.error = some e → Fails u l e → Goes u l r

/-- Outside the braces a step reads up to an opening brace. -/
lemma goes_stepOutside {r : Reading} {d u l} (dd : DocumentNode.Derives d u)
    (doc : r.document = d.document) (s : r.cursor.Sees l) (more : l.item ≠ .eof) :
    Goes u l r.stepOutside := by
  have header := s.header? dd more
  unfold stepOutside
  generalize r.cursor.header? = result at header
  cases header with
  | passed begins opened s' =>
    obtain ⟨x, n, y, b, w, rfl, db, rfl⟩ := opened
    refine .on begins ?_
    rw [← List.append_nil w]
    exact .inside rfl dd doc db .nil rfl s' nofun
  | failed err f => exact .failed err f

/-- Behind the closing brace the definition has been read. -/
lemma stands_close {c : Cursor} {package} {enums : Array EnumType} {o : OpenEnum}
    {d u x n y b v ms w z l} (dd : DocumentNode.Derives d u)
    (doc : ⟨package, enums.toList⟩ = d.document) (db : BaseNode.Derives b v)
    (sm : Star MemberNode.Derives ms w) (close : o.close = EnumNode.enumType ⟨n, b, ms⟩)
    (s : c.Sees l) :
    Stands ⟨c, package, enums.push o.close, none⟩
      (u ++ (⟨.type, x⟩ :: ⟨.ident, n⟩ :: ⟨.enum, y⟩ :: (v ++ w)) ++ [⟨.rbrace, z⟩]) l := by
  refine .outside rfl (d := d.push ⟨n, b, ms⟩) ?_ ?_ s
  · have de : EnumNode.Derives ⟨n, b, ms⟩ (⟨.type, x⟩ :: ⟨.ident, n⟩ :: ⟨.enum, y⟩ ::
        (v ++ (w ++ [⟨.rbrace, z⟩]))) := .mk db sm
    simpa using dd.push de
  · rw [DocumentNode.document_push, ← doc, ← close]
    simp [document]

/-- Inside the braces a step reads a member or the closing brace. -/
lemma goes_stepInside {r : Reading} {o : OpenEnum} {d u x n y b v ms w l}
    (dd : DocumentNode.Derives d u) (doc : r.document = d.document) (db : BaseNode.Derives b v)
    (sm : Star MemberNode.Derives ms w) (close : o.close = EnumNode.enumType ⟨n, b, ms⟩)
    (s : r.cursor.Sees l) (tag : bodyPosition ms = .named → ¬l.Has .tag) (ok : ¬r.cursor.isBroken) :
    Goes (u ++ (⟨.type, x⟩ :: ⟨.ident, n⟩ :: ⟨.enum, y⟩ :: (v ++ w))) l (r.stepInside o) := by
  have at' : Reaches (u ++ (⟨.type, x⟩ :: ⟨.ident, n⟩ :: ⟨.enum, y⟩ :: (v ++ w))) (bodyPosition ms) :=
    .body dd db sm
  have inside : (bodyPosition ms).IsInside := foldl_position_isInside ms (.inl rfl)
  unfold stepInside
  split
  · rename_i now
    have item : l.item = .eof := (s.isEof_iff ok).mp now
    -- The closing brace is asked for only to fail.
    obtain ⟨z, n₁, l₁, c₁, rfl, e₁, s₁⟩ | ⟨no, c₁, e₁, err⟩ := s.require? (k := .rbrace) nofun
    · cases item
    have expected : (bodyPosition ms).expected l.item = TokenKind.describe .rbrace := by
      obtain e | e := inside <;> (rw [e]; exact if_pos item)
    rw [← expected] at err
    refine .failed (by rw [e₁]; exact err) (.here at' ?_)
    rw [item]
    exact inside.refuses_eof
  · rename_i now
    have more : l.item ≠ .eof := fun e => now ((s.isEof_iff ok).mpr e)
    obtain ⟨z, n₁, l₁, c₁, rfl, e₁, s₁⟩ | ⟨no, e₁⟩ := s.take? (k := .rbrace) nofun
    · rw [e₁]
      exact .on (.cons .nil) (stands_close dd doc db sm close s₁.note)
    · have member := s.member? at' inside tag no more
      rw [e₁]
      dsimp only
      generalize r.cursor.member? = result at member
      cases member with
      | failed err f => exact .failed err f
      | @passed m' v' l' c' begins derived s' =>
        obtain ⟨m, dm, rfl, tag'⟩ := derived
        refine .on begins ?_
        have body : bodyPosition (ms ++ [m]) = m.position := by simp [bodyPosition]
        have close' : (⟨o.name, o.base, o.members.push m.member⟩ : OpenEnum).close =
            EnumNode.enumType ⟨n, b, ms ++ [m]⟩ := by
          simp only [OpenEnum.close, EnumNode.enumType, EnumType.mk.injEq] at close ⊢
          simp [close]
        have stands := Stands.inside (r := { r with cursor := c', opened := some _ }) (x := x) (y := y)
          rfl dd doc db (sm.snoc dm) close' s' (by rwa [body])
        simpa using stands

/-- A step goes on with the reading, or it fails where the grammar does. -/
lemma Stands.step {r : Reading} {u l} (st : r.Stands u l) (more : ¬r.isOver) :
    Goes u l r.step := by
  simp only [isOver, Bool.or_eq_true, Bool.and_eq_true, not_or, not_and] at more
  obtain ⟨ok, more⟩ := more
  cases st with
  | outside opened dd doc s =>
    rw [Reading.step, opened]
    refine goes_stepOutside dd doc s ?_
    intro e
    exact more (by rw [opened]; rfl) ((s.isEof_iff ok).mpr e)
  | inside opened dd doc db sm close s tag =>
    rw [Reading.step, opened]
    exact goes_stepInside dd doc db sm close s tag ok

lemma Stands.reaches {r : Reading} {u l} (st : r.Stands u l) : ∃ p, Reaches u p := by
  cases st with
  | outside _ dd _ _ => exact ⟨_, .outside dd⟩
  | inside _ dd _ db sm _ _ _ => exact ⟨_, .body dd db sm⟩

lemma Stands.sees {r : Reading} {u l} (st : r.Stands u l) : r.cursor.Sees l := by
  cases st with
  | outside _ _ _ s | inside _ _ _ _ _ _ s _ => exact s

/-- A reading that is over has read a whole document or has failed to read the next token. -/
lemma Stands.of_isOver {r : Reading} {u l} (st : r.Stands u l) (fin : r.isOver) :
    (∃ d, l.failure = none ∧ DocumentNode.Derives d (u ++ l.tokens.map Prod.fst) ∧
      r.document = d.document ∧ r.cursor.error = none) ∨
      ∃ e, r.cursor.error = some e ∧ Fails u l e := by
  have s := st.sees
  have end' : r.cursor.isBroken ∨ r.opened = none ∧ r.cursor.current.isEof := by
    simpa [isOver] using fin
  cases s with
  | token ok now =>
    -- With a token ahead no reading is over.
    rw [Cursor.isBroken_eq_false.mpr ok] at end'
    simp [now] at end'
  | ended ok now _ =>
    rw [Cursor.isBroken_eq_false.mpr ok] at end'
    cases st with
    | outside _ dd doc _ => exact .inl ⟨_, rfl, by simpa using dd, doc, ok⟩
    | inside opened => simp [opened] at end'
  | failed err =>
    obtain ⟨p, at'⟩ := st.reaches
    exact .inr ⟨_, err, .here at' trivial⟩

lemma run_of_error {r : Reading} {e} (err : r.cursor.error = some e) : r.run = r := by
  have fin : r.isOver := by simp [isOver, Cursor.isBroken, err]
  rw [run, if_pos fin]

/-- A run reads all that is ahead, which is then the rest of a document, or it fails where the
grammar does. -/
lemma Stands.run {r : Reading} {u l} (st : r.Stands u l) :
    (∃ d, l.failure = none ∧ DocumentNode.Derives d (u ++ l.tokens.map Prod.fst) ∧
      r.run.document = d.document ∧ r.run.cursor.error = none) ∨
      ∃ e, r.run.cursor.error = some e ∧ Fails u l e := by
  induction r using Reading.run.induct generalizing u l with
  | case1 r fin =>
    rw [Reading.run, if_pos fin]
    exact st.of_isOver fin
  | case2 r more ih =>
    rw [Reading.run, if_neg more]
    cases st.step more with
    | failed err f =>
      rw [run_of_error err]
      exact .inr ⟨_, err, f⟩
    | on begins st' =>
      obtain ⟨tokens, failure⟩ := begins.tokens
      obtain ⟨d, closed, dd, doc, ok⟩ | ⟨e, err, f⟩ := ih st'
      · refine .inl ⟨d, failure.trans closed, ?_, doc, ok⟩
        rw [tokens, ← List.append_assoc]
        exact dd
      · exact .inr ⟨e, err, begins.fails f⟩

end Reading

namespace Cursor

lemma require?_of_error {c : Cursor} {e : ParseError} (err : c.error = some e) (k : TokenKind) :
    c.require? k = (none, c) := by
  have broken : c.isBroken := by simp [isBroken, err]
  rw [require?, take?, broken]
  simp [failExpecting, fail, latch_of_error err]

lemma parseDocument_of_error {c c' : Cursor} {doc e} (read : c.readDocument = (doc, c'))
    (err : c'.error = some e) : c.parseDocument = .error e := by
  rw [parseDocument, read]
  simp [finish, err]

/-- A cursor reads the document that the grammar derives from what is ahead, or it fails where
what is ahead stops being the start of one. -/
lemma Sees.parseDocument {c : Cursor} {l : Lexed} (s : c.Sees l) :
    (∃ d, l.failure = none ∧ DocumentNode.Derives d (l.tokens.map Prod.fst) ∧
      c.parseDocument = .ok d.document) ∨
      ∃ e, c.parseDocument = .error e ∧ Fails [] l e := by
  obtain ⟨x, n₁, l₁, c₁, rfl, e₁, s₁⟩ | ⟨c₁, e, e₁, err, f⟩ := s.require?_only .start rfl nofun
  case inr =>
    -- The name is asked for all the same, which changes nothing any more.
    have read : c.readDocument = (.empty, c₁) := by
      rw [readDocument, e₁, require?_of_error err]
    exact .inr ⟨e, parseDocument_of_error read err, f⟩
  obtain ⟨p, n₂, l₂, c₂, rfl, e₂, s₂⟩ | ⟨c₂, e, e₂, err, f⟩ :=
    s₁.require?_only (.packageName (l := x)) rfl nofun
  case inr =>
    have read : c.readDocument = (.empty, c₂) := by
      simp only [readDocument, e₁, e₂]
    exact .inr ⟨e, parseDocument_of_error read err, .later f⟩
  have read : c.readDocument =
      ((Reading.run ⟨c₂, p, #[], none⟩).document, (Reading.run ⟨c₂, p, #[], none⟩).cursor) := by
    simp only [readDocument, e₁, e₂]
  have stands : Reading.Stands ⟨c₂, p, #[], none⟩ [⟨.package, x⟩, ⟨.ident, p⟩] l₂ :=
    .outside (d := ⟨p, []⟩) rfl (.mk .nil) rfl s₂
  obtain ⟨d, closed, dd, doc, ok⟩ | ⟨e, err, f⟩ := stands.run
  · refine .inl ⟨d, closed, dd, ?_⟩
    rw [Cursor.parseDocument, read, ← doc]
    simp [finish, ok]
  · exact .inr ⟨e, parseDocument_of_error read err, .later (.later f)⟩

end Cursor

end EnumGen
