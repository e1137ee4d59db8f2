import EnumGen.Proofs.Token.Lossless
import EnumGen.Proofs.Token.Written
import Mathlib

/-!
# Gaps are transparent

A gap between two texts keeps their tokens apart and adds none. If `s` is a gap between `u` and `v`
(`Separates`), the pieces of `u ++ s ++ v` are those of `u` and those of `v`, of which the first has
the gap in front of it (`Divides.append`). So the text is read as the tokens of `u` and then those
of `v`, further down by the lines that `u` and `s` take (`ofSource_append_of_separates`), and no
matter which gap it is.

The one thing that a gap cannot do is to start inside a line comment that `u` leaves open: then
the comment swallows it, unless the gap begins with the newline that ends the comment.
-/

namespace EnumGen

/-! ## Texts behind one another -/

/-- The same failure, met further down. -/
def LexError.shift (k : Nat) : LexError → LexError
  | unexpectedEnd n => unexpectedEnd (n + k)

namespace Lexed

/-- The same text, further down. -/
def shift (k : Nat) (l : Lexed) : Lexed :=
  ⟨l.tokens.map fun p => (p.1, p.2 + k), l.failure.map (·.shift k), l.line + k⟩

/-- Another text behind a text that ends without a failure. -/
def append (l m : Lexed) : Lexed :=
  ⟨l.tokens ++ m.tokens, m.failure, m.line⟩

end Lexed

/-- Behind its last token and a gap, the text has a line comment that nothing ends. -/
def EndsInLineComment (s : List Char) : Prop :=
  ∃ ps gap text, Divides s ps (gap ++ '/' :: '/' :: text) .closed ∧ Trivia gap ∧ '\n' ∉ text

/-- A gap that is not empty, and that ends the line comment which the text before it leaves open. -/
structure Separates (s u : List Char) : Prop where
  trivia : Trivia s
  ne_nil : s ≠ []
  newline : EndsInLineComment u → s.head? = some '\n'

lemma numbered_add (line k : Nat) (ps : List Piece) :
    numbered (line + k) ps = (numbered line ps).map fun p => (p.1, p.2 + k) := by
  induction ps generalizing line with
  | nil => rfl
  | cons p ps ih =>
    have e : line + k + newlines (p.gap ++ p.text) = line + newlines (p.gap ++ p.text) + k := by
      omega
    rw [numbered, numbered, List.map_cons, e, ih]

lemma Ending.failure_add (line k : Nat) (e : Ending) :
    e.failure (line + k) = (e.failure line).map (·.shift k) := by
  cases e <;> rfl

/-! ## Gaps in front of and behind a text -/

lemma Trivia.append {g h} (tg : Trivia g) (th : Trivia h) : Trivia (g ++ h) := by
  induction tg with
  | nil => exact th
  | blank b _ ih => exact .blank b ih
  | line nl _ ih =>
    have tr := Trivia.line nl ih
    simpa using tr
  | block nc _ ih =>
    have tr := Trivia.block nc ih
    simpa using tr

lemma Trivia.of_newline {g} (tr : Trivia ('\n' :: g)) : Trivia g := by
  cases tr with
  | blank _ tr => exact tr

/-- A gap in front of a text belongs to the gap before its first token. -/
lemma Divides.prepend {s ps last e g} (d : Divides s ps last e) (tr : Trivia g) :
    ∃ qs last', Divides (g ++ s) qs last' e ∧
      ∀ line, numbered line qs = numbered (line + newlines g) ps := by
  cases d with
  | @ended gap tail _ tr' ta =>
    have d := Divides.ended (tr.append tr') ta
    rw [List.append_assoc] at d
    exact ⟨[], _, d, fun _ => rfl⟩
  | @piece gap t text rest ps _ _ tr' sp d =>
    have d := Divides.piece (tr.append tr') sp d
    rw [List.append_assoc] at d
    refine ⟨_, _, d, fun line => ?_⟩
    simp [numbered, Nat.add_assoc]

/-- What a text ends in behind its last token is a gap with a separator behind it. -/
lemma Tail.trivia_append {gap tail s} (tr : Trivia gap) (ta : Tail tail .closed)
    (sep : Separates s (gap ++ tail)) : Trivia (gap ++ tail ++ s) := by
  cases ta with
  | nil => simpa using tr.append sep.trivia
  | @lineComment text nl =>
    -- The separator starts with the newline that the comment lacks.
    obtain ⟨r, rfl⟩ := List.head?_eq_some_iff.mp
      (sep.newline ⟨[], gap, text, .ended tr (.lineComment nl), tr, nl⟩)
    have comment := tr.append (.line nl sep.trivia.of_newline)
    simpa using comment

/-- A token stays the same if a gap follows the text that it stands in. -/
lemma Spells.append {t text rest s v} (sp : Spells t text rest) (tr : Trivia s) (ne : s ≠ []) :
    Spells t text (rest ++ (s ++ v)) := by
  have stop (no : ∀ c ∈ rest.head?, ¬LetterOrDigit c) :
      ∀ c ∈ (rest ++ (s ++ v)).head?, ¬LetterOrDigit c := by
    cases rest with
    | nil => exact tr.stop ne
    | cons c rest => exact no
  cases sp with
  | keyword w mem no => exact .keyword w mem (stop no)
  | name w free no => exact .name w free (stop no)
  | tag no => exact .tag no
  | eq => exact .eq
  | lbrace => exact .lbrace
  | rbrace => exact .rbrace
  | other b l special slash =>
    refine .other b l special fun e => ?_
    obtain ⟨d, r, rfl, d₁, d₂⟩ := slash e
    exact ⟨d, r ++ (s ++ v), rfl, d₁, d₂⟩

lemma EndsInLineComment.piece {gap t text rest} (tr : Trivia gap) (sp : Spells t text rest)
    (open' : EndsInLineComment rest) : EndsInLineComment (gap ++ (text ++ rest)) := by
  obtain ⟨ps, gap', comment, d, tr', nl⟩ := open'
  exact ⟨_, gap', comment, .piece tr sp d, tr', nl⟩

/-! ## Two texts with a gap between them -/

/-- The tokens of two texts with a separator between them are those of the one and of the other. -/
lemma Divides.append {u ps last e s v qs last' e'} (du : Divides u ps last e) (closed : e = .closed)
    (sep : Separates s u) (dv : Divides v qs last' e') :
    ∃ rs last'', Divides (u ++ (s ++ v)) rs last'' e' ∧
      ∀ line, numbered line rs = numbered line ps ++ numbered (line + newlines (u ++ s)) qs := by
  -- On the pieces of the first text; behind the last one, its end joins the gap of what follows.
  induction du with
  | @ended gap tail e tr ta =>
    subst closed
    have tr' : Trivia (gap ++ tail ++ s) := ta.trivia_append tr sep
    obtain ⟨rs, last'', d, lines⟩ := dv.prepend tr'
    rw [List.append_assoc] at d
    exact ⟨rs, last'', d, lines⟩
  | @piece gap t text rest ps last e tr sp _ ih =>
    have sep' : Separates s rest :=
      ⟨sep.trivia, sep.ne_nil, fun open' => sep.newline (open'.piece tr sp)⟩
    obtain ⟨rs, last'', d, lines⟩ := ih closed sep'
    have d := Divides.piece tr (sp.append sep.trivia sep.ne_nil) d
    refine ⟨⟨gap, t, text⟩ :: rs, last'', by simpa using d, fun line => ?_⟩
    rw [numbered, numbered, lines, List.cons_append]
    simp [Nat.add_assoc]

lemma Lexed.ofChars_append {line u s v} (closed : (ofChars line u).failure = none)
    (sep : Separates s u) : ofChars line (u ++ (s ++ v)) =
      (ofChars line u).append ((ofChars line v).shift (newlines (u ++ s))) := by
  obtain ⟨ps, last, e, du⟩ := exists_divides u
  obtain ⟨qs, last', e', dv⟩ := exists_divides v
  rw [du.ofChars] at closed ⊢
  have ending : e = .closed := by
    cases e with
    | closed => rfl
    | cut => cases closed
  obtain ⟨rs, last'', d, lines⟩ := du.append ending sep dv
  have total : line + newlines (u ++ (s ++ v)) = line + newlines v + newlines (u ++ s) := by
    simp only [newlines_append]
    omega
  rw [d.ofChars, dv.ofChars, lines, numbered_add, total, Ending.failure_add]
  rfl

/-- A separator between two texts is transparent: behind a text that ends without a failure stand
the tokens of the other one and its failure, if it has one, further down by the lines that are
passed. With any other separator the tokens are the same. -/
theorem ofSource_append_of_separates (u s v : String) (closed : (Lexed.ofSource u).failure = none)
    (sep : Separates s.toList u.toList) :
    Lexed.ofSource (u ++ s ++ v) =
        (Lexed.ofSource u).append
          ((Lexed.ofSource v).shift (newlines (u ++ s).toList)) ∧
      ∀ s' : String, Separates s'.toList u.toList →
        (Lexed.ofSource (u ++ s' ++ v)).tokens.map Prod.fst =
          (Lexed.ofSource (u ++ s ++ v)).tokens.map Prod.fst := by
  have read {s : String} (sep : Separates s.toList u.toList) : Lexed.ofSource (u ++ s ++ v) =
      (Lexed.ofSource u).append ((Lexed.ofSource v).shift (newlines (u ++ s).toList)) := by
    simp only [Lexed.ofSource, String.toList_append, List.append_assoc]
    exact Lexed.ofChars_append closed sep
  refine ⟨read sep, fun s' sep' => ?_⟩
  rw [read sep, read sep']
  simp [Lexed.append, Lexed.shift, Function.comp_def]

/-- Behind an open line comment stands a newline with a block comment, and a tag that is not
closed behind that. -/
theorem ofSource_append_comments :
    (Lexed.ofSource "a // `").failure = none ∧
      Separates "\n/*/ ` **/".toList "a // `".toList ∧
      Lexed.ofSource ("a // `" ++ "\n/*/ ` **/" ++ "b\n`t") =
        ⟨[(⟨.ident, "a"⟩, 1), (⟨.ident, "b"⟩, 2)], some (.unexpectedEnd 3), 3⟩ := by
  have closed : (Lexed.ofSource "a // `").failure = none := by cbv
  have comment : ¬HasCloser ("/ ` *".toList ++ ['*']) := by
    unfold HasCloser
    decide
  have sep : Separates "\n/*/ ` **/".toList "a // `".toList :=
    ⟨.blank rfl (.block comment .nil), by decide, fun _ => rfl⟩
  have left : Lexed.ofSource "a // `" = ⟨[(⟨.ident, "a"⟩, 1)], none, 1⟩ := by cbv
  have right : Lexed.ofSource "b\n`t" = ⟨[(⟨.ident, "b"⟩, 1)], some (.unexpectedEnd 2), 2⟩ := by cbv
  refine ⟨closed, sep, ?_⟩
  rw [(ofSource_append_of_separates _ _ _ closed sep).1, left, right]
  rfl

end EnumGen
