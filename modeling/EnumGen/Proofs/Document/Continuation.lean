import EnumGen.Proofs.Document.Concatenation
import EnumGen.Proofs.Document.Layout
import EnumGen.Proofs.Document.Misfit

/-!
# Going on with a text that is no document

A text fails at the first item that no document has at that place (`Offends`). Where this is a token
with some text behind it, nothing that is added at the end can mend it: the tokens up to there stay
as they are (`Divides.extend`), and the error is about them alone. Where it is the end of the text,
there is always something to add with which the text becomes a document: from every place of the
grammar tokens lead out of it (`Position.completion`), and they can be written on a new line
(`parse_append_of_misplaced`).
-/

namespace EnumGen

open Grammar

/-! ## The item at fault -/

/-- The item at which the text stops being the start of a document, and the text up to its end. -/
def Offends (source : List Char) (item : Item) (upTo : List Char) : Prop :=
  ∃ ps last e i, Divides source ps last e ∧ IsLeast {n | ¬Viable ((items ps e).take n)} i ∧
    (items ps e)[i - 1]? = some item ∧ upTo = textUpTo ps last i

lemma Offends.unique {source item item' upTo upTo'} (o : Offends source item upTo)
    (o' : Offends source item' upTo') : item' = item ∧ upTo' = upTo := by
  obtain ⟨ps, last, e, i, d, least, here, rfl⟩ := o
  obtain ⟨ps', last', e', i', d', least', here', rfl⟩ := o'
  obtain ⟨rfl, rfl, rfl⟩ := d.unique d'
  obtain rfl := least'.unique least
  exact ⟨Option.some.inj (here'.symm.trans here), rfl⟩

/-- An item that is refused behind pieces is the one at fault. -/
lemma offends_of_refused {source : List Char} {qs rs last p i} {e : Ending}
    (d : Divides source (qs ++ rs) last e) (at' : Reaches (qs.map Piece.token) p)
    (no : p.Refuses i) (head : (items rs e).head? = some i) :
    Offends source i (if rs = [] then source else joined (qs ++ rs.take 1)) := by
  refine ⟨_, last, e, qs.length + 1, d, at'.isLeast no head, items_getElem?_of_head? head, ?_⟩
  rw [textUpTo_succ, ← d.eq_joined]

/-- Behind pieces, reading fails with the report on a token that is refused there. -/
lemma Fails.of_refused {u qs n p r} (rs : List Piece) (failure : Option LexError) (k : Nat)
    (at' : Reaches (u ++ qs.map Piece.token) p) (no : p.Refuses (.token r.token)) :
    Fails u ⟨numbered n (qs ++ r :: rs), failure, k⟩
      (report p (n + newlines (joined (qs ++ [r]))) (.token r.token)) := by
  induction qs generalizing u n with
  | nil =>
    have text : joined ([] ++ [r]) = r.gap ++ r.text := by simp [joined]
    rw [List.map_nil, List.append_nil] at at'
    rw [text]
    exact .here at' no
  | cons q qs ih =>
    have lines : n + newlines (joined (q :: qs ++ [r])) =
        n + newlines (q.gap ++ q.text) + newlines (joined (qs ++ [r])) := by
      simp [joined, Nat.add_assoc]
    have later : Fails (u ++ [q.token])
        ⟨numbered (n + newlines (q.gap ++ q.text)) (qs ++ r :: rs), failure, k⟩ _ :=
      ih (by simpa using at')
    rw [lines]
    exact .later later

/-! ## Tokens that stay -/

/-- What is added to a text does not reach a token that has something behind it. -/
lemma Spells.extend {t text rest} (sp : Spells t text rest) (ne : rest ≠ []) (v : List Char) :
    Spells t text (rest ++ v) := by
  obtain ⟨d, r, rfl⟩ := List.exists_cons_of_ne_nil ne
  cases sp with
  | keyword w mem stop => exact .keyword w mem stop
  | name w free stop => exact .name w free stop
  | tag no => exact .tag no
  | eq => exact .eq
  | lbrace => exact .lbrace
  | rbrace => exact .rbrace
  | other b l special slash =>
    refine .other b l special fun e => ?_
    obtain ⟨_, _, same, d₁, d₂⟩ := slash e
    cases same
    exact ⟨d, r ++ v, rfl, d₁, d₂⟩

lemma Divides.ne_nil {s p ps last e} (d : Divides s (p :: ps) last e) : s ≠ [] := by
  cases d with
  | piece _ sp _ =>
    intro empty
    simp only [List.append_eq_nil_iff] at empty
    exact sp.ne_nil empty.2.1

/-- If a token is not at the very end of a text, then it and all tokens before it stay the same,
whatever is added. -/
lemma Divides.extend {s qs r rs last e} (d : Divides s (qs ++ r :: rs) last e)
    (more : joined (qs ++ [r]) ≠ s) (v : List Char) :
    ∃ rs' last' e', Divides (s ++ v) (qs ++ r :: rs') last' e' := by
  induction qs generalizing s with
  | nil =>
    cases d with
    | @piece gap t text rest _ _ _ tr sp d =>
      have ne : rest ≠ [] := by
        rintro rfl
        exact more (by simp [joined])
      obtain ⟨rs', last', e', d'⟩ := exists_divides (rest ++ v)
      refine ⟨rs', last', e', ?_⟩
      simpa using Divides.piece tr (sp.extend ne v) d'
  | cons q qs ih =>
    cases d with
    | @piece gap t text rest _ _ _ tr sp d =>
      have more' : joined (qs ++ [r]) ≠ rest := by
        rintro rfl
        exact more (by simp [joined])
      have ne : rest ≠ [] := by
        cases qs <;> exact d.ne_nil
      obtain ⟨rs', last', e', d'⟩ := ih d more'
      refine ⟨rs', last', e', ?_⟩
      simpa using Divides.piece tr (sp.extend ne v) d'

/-! ## Tokens that complete a document -/

namespace Grammar.Position

/-- Tokens that lead from the place to the end of a document. -/
def completion : Position → List Token
  | start => [⟨.package, "package"⟩, ⟨.ident, "x"⟩]
  | packageName => [⟨.ident, "x"⟩]
  | outside => []
  | typeName => [⟨.ident, "x"⟩, ⟨.enum, "enum"⟩, ⟨.lbrace, "\x7b"⟩, ⟨.rbrace, "\x7d"⟩]
  | enumWord => [⟨.enum, "enum"⟩, ⟨.lbrace, "\x7b"⟩, ⟨.rbrace, "\x7d"⟩]
  | base | brace => [⟨.lbrace, "\x7b"⟩, ⟨.rbrace, "\x7d"⟩]
  | inside | named => [⟨.rbrace, "\x7d"⟩]

lemma run?_completion (p : Position) : p.run? p.completion = some .outside := by
  cases p <;> rfl

lemma occurs_completion (p : Position) : ∀ t ∈ p.completion, t.Occurs := by
  have name : Token.Occurs ⟨.ident, "x"⟩ := occurs_ident.mpr (by decide)
  have all {ts : List Token} (fixed : ∀ t ∈ ts, t = ⟨.ident, "x"⟩ ∨ t.kind.text? = some t.lexeme) :
      ∀ t ∈ ts, t.Occurs := by
    intro t mem
    obtain rfl | is := fixed t mem
    · exact name
    · exact occurs_of_text? is
  apply all
  cases p <;> decide

end Grammar.Position

/-- Tokens can be written out as a text. -/
lemma exists_ofSource {ts : List Token} (oc : ∀ t ∈ ts, t.kind ≠ .other ∧ t.Occurs) :
    ∃ w, (Lexed.ofSource w).failure = none ∧ (Lexed.ofSource w).tokens.map Prod.fst = ts := by
  obtain ⟨ps, last, d, rfl⟩ := (written_spaced ts).divides oc .nil
  rw [List.nil_append] at d
  refine ⟨String.ofList ((ps.map Piece.token).flatMap fun t => t.spelling ++ [' ']), ?_⟩
  rw [Lexed.ofSource, String.toList_ofList, d.ofChars]
  exact ⟨rfl, map_fst_numbered _ _⟩

/-- A text whose tokens lead somewhere in the grammar can be completed behind its end. -/
lemma exists_parse_append {u : String} {p} (closed : (Lexed.ofSource u).failure = none)
    (at' : Reaches ((Lexed.ofSource u).tokens.map Prod.fst) p) :
    ∃ v d, Document.parse (u ++ v) = .ok d := by
  have oc : ∀ t ∈ p.completion, t.kind ≠ .other ∧ t.Occurs := by
    intro t mem
    exact ⟨Position.kind_ne_other p.run?_completion t mem, p.occurs_completion t mem⟩
  obtain ⟨w, closed', tokens⟩ := exists_ofSource oc
  have whole := at'.append_iff.mpr p.run?_completion
  obtain ⟨n, dd⟩ := derives_iff_run.mpr whole.run
  have s := Cursor.sees_ofSource (u ++ "\n" ++ w)
  rw [ofSource_append_newline w closed] at s
  refine ⟨"\n" ++ w, n.document, ?_⟩
  rw [← String.append_assoc, Document.parse, s.parseDocument_eq_ok_iff]
  refine ⟨by simp [Lexed.append, Lexed.shift, closed'], n, ?_, rfl⟩
  rwa [Lexed.append, List.map_append, Lexed.map_fst_shift, tokens]

/-! ## What a continuation changes -/

/-- A text with a misplaced item has one item at fault, which the error reports. A token that is not
at the very end of the text remains at fault with the same error whatever is added, and if the end
of the text is at fault, the text can be completed. -/
theorem parse_append_of_misplaced (u : String) {n : Nat} {m : String}
    (fails : Document.parse u = .error (.misplaced n m)) :
    ∃ item upTo, Offends u.toList item upTo ∧
      (∀ item' upTo', Offends u.toList item' upTo' → item' = item ∧ upTo' = upTo) ∧
      (∃ p, .misplaced n m = report p (1 + newlines upTo) item) ∧
      ((∃ t, item = .token t ∧
          (upTo ≠ u.toList → ∀ v, Document.parse (u ++ v) = .error (.misplaced n m))) ∨
        (item = .eof ∧ ∃ v d, Document.parse (u ++ v) = .ok d)) := by
  obtain ⟨ps, last, e, d⟩ := exists_divides u.toList
  have lexed : Lexed.ofSource u = _ := d.ofChars
  have s := Cursor.sees_ofSource u
  rw [Document.parse, s.parseDocument_eq_error_iff, lexed] at fails
  obtain ⟨qs, rs, i, p, rfl, at', no, head, is⟩ := fails.exists_refused
  rw [List.nil_append] at at'
  have offends := offends_of_refused d at' no head
  refine ⟨i, _, offends, fun _ _ o => offends.unique o, ?_⟩
  cases rs with
  | nil =>
    refine ⟨⟨p, is⟩, .inr ?_⟩
    cases head
    cases e with
    | cut => cases is
    | closed =>
      refine ⟨rfl, exists_parse_append (p := p) ?_ ?_⟩
      · rw [lexed]
        rfl
      · rw [lexed, map_fst_numbered]
        simpa using at'
  | cons r rs =>
    refine ⟨⟨p, is⟩, .inl ⟨r.token, (Option.some.inj head).symm, fun more v => ?_⟩⟩
    cases head
    obtain ⟨rs', last', e', d'⟩ := d.extend more v.toList
    have s' := Cursor.sees_ofSource (u ++ v)
    rw [Lexed.ofSource, String.toList_append, d'.ofChars] at s'
    rw [Document.parse, s'.parseDocument_eq_error_iff, is]
    exact .of_refused rs' _ _ (by simpa using at') no

/-- A name in place of a definition, which a slash follows, is refused also if the slash turns out
to open a comment. -/
theorem parse_append_of_misplaced_slash :
    Document.parse "package p x/" =
        .error (.misplaced 1 "expected 'type', got identifier \"x\"") ∧
      ∀ v, Document.parse ("package p x/" ++ v) =
        .error (.misplaced 1 "expected 'type', got identifier \"x\"") := by
  have fails : Document.parse "package p x/" =
      .error (.misplaced 1 "expected 'type', got identifier \"x\"") := by cbv
  have word {t : Token} (oc : t.Occurs) (other : t.kind ≠ .other) {c} (no : ¬isWordChar c)
      (r : List Char) : Spells t t.spelling (c :: r) :=
    oc.spells other fun _ d mem l => by
      cases mem
      exact no (isWordChar_iff.mpr l)
  have package : Token.Occurs ⟨.package, "package"⟩ := occurs_of_text? rfl
  have p : Token.Occurs ⟨.ident, "p"⟩ := occurs_ident.mpr (by decide)
  have x : Token.Occurs ⟨.ident, "x"⟩ := occurs_ident.mpr (by decide)
  have blank : Trivia [' '] := .blank rfl .nil
  have d : Divides "package p x/".toList
      ([⟨[], ⟨.package, "package"⟩, "package".toList⟩, ⟨[' '], ⟨.ident, "p"⟩, ['p']⟩] ++
        [⟨[' '], ⟨.ident, "x"⟩, ['x']⟩]) ['/'] .cut :=
    .piece .nil (word package (by decide) (c := ' ') (by decide) ['p', ' ', 'x', '/'])
      (.piece blank (word p (by decide) (c := ' ') (by decide) ['x', '/'])
        (.piece blank (word x (by decide) (c := '/') (by decide) []) (.ended .nil .slash)))
  have refused : Position.outside.Refuses (.token ⟨.ident, "x"⟩) := rfl
  have offends := offends_of_refused d (.outside (.mk .nil)) refused rfl
  obtain ⟨item, upTo, _, only, _, after⟩ := parse_append_of_misplaced _ fails
  obtain ⟨rfl, rfl⟩ := only _ _ offends
  obtain ⟨t, -, same⟩ | ⟨no, -⟩ := after
  · exact ⟨fails, same (by decide)⟩
  · cases no

end EnumGen
