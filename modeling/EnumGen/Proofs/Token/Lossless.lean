import EnumGen.Proofs.Token.Scan

/-!
# Reading loses nothing

A text is read exactly as its division says. `Lexed.ofChars` gives the tokens of the pieces, each
with the line it ends on (`Divides.ofChars`), so a text has only one division (`Divides.unique`).
`Yields` describes a stream that delivers tokens until nothing is left, and the main theorem
`yields_iff_divides` says when that happens: just if the text consists of these tokens and gaps.
-/

namespace EnumGen

/-! ## The tokens of a division with their lines -/

/-- The tokens of the pieces, each with the line it ends on. -/
def numbered (line : Nat) : List Piece → List (Token × Nat)
  | [] => []
  | p :: ps =>
    (p.token, line + newlines (p.gap ++ p.text)) ::
      numbered (line + newlines (p.gap ++ p.text)) ps

/-- The failure that a text with the given ending is read with. -/
def Ending.failure (line : Nat) : Ending → Option LexError
  | closed => none
  | cut => some (.unexpectedEnd line)

lemma map_fst_numbered (line : Nat) (ps : List Piece) :
    (numbered line ps).map Prod.fst = ps.map Piece.token := by
  induction ps generalizing line with
  | nil => rfl
  | cons p ps ih => rw [numbered, List.map_cons, List.map_cons, ih]

lemma Lexed.ofChars_of_token {line s t n r} (h : scan line s = .token t n r) :
    ofChars line s = { ofChars n r with tokens := (t, n) :: (ofChars n r).tokens } := by
  rw [ofChars]
  split <;> (rename_i h'; rw [h'] at h; cases h)
  rfl

lemma Lexed.ofChars_of_ending {line s n} {e : Ending} (h : scan line s = e.scan n) :
    ofChars line s = ⟨[], e.failure n, n⟩ := by
  rw [ofChars]
  split <;> (rename_i h'; rw [h'] at h; cases e <;> cases h)
  all_goals rfl

/-- A text is read as its division says. -/
lemma Divides.ofChars {line s ps last e} (d : Divides s ps last e) :
    Lexed.ofChars line s =
      ⟨numbered line ps, e.failure (line + newlines s), line + newlines s⟩ := by
  induction d generalizing line with
  | ended tr ta => exact Lexed.ofChars_of_ending (ta.scan tr)
  | @piece gap t text rest ps last e tr sp _ ih =>
    rw [Lexed.ofChars_of_token (sp.scan tr), ih, ← List.append_assoc,
      newlines_append (gap ++ text), Nat.add_assoc]
    rfl

/-! ## Lines of a divided text -/

/-- The text up to the end of item number `i`, counted from one. Behind the last token stands an
item that reaches to the end of the text. -/
def textUpTo (ps : List Piece) (last : List Char) (i : Nat) : List Char :=
  if i ≤ ps.length then joined (ps.take i) else joined ps ++ last

namespace Lexed

/-- The line on which token number `i` ends, and behind the last one the line of the end. -/
def lineAt (l : Lexed) (i : Nat) : Nat :=
  (l.tokens[i]?.map Prod.snd).getD l.line

/-- A token ends on the line that the text up to its last character goes to. -/
lemma numbered_getElem? {n : Nat} {ps : List Piece} {i : Nat} (less : i < ps.length) :
    ((numbered n ps)[i]?.map Prod.snd) = some (n + newlines (joined (ps.take (i + 1)))) := by
  induction ps generalizing n i with
  | nil => exact absurd less (Nat.not_lt_zero i)
  | cons p ps ih =>
    cases i with
    | zero => simp [numbered, joined]
    | succ i =>
      have later := ih (n := n + newlines (p.gap ++ p.text)) (Nat.lt_of_succ_lt_succ less)
      rw [numbered, List.getElem?_cons_succ, later]
      simp [joined, Nat.add_assoc]

lemma length_numbered (n : Nat) (ps : List Piece) : (numbered n ps).length = ps.length := by
  have tokens := congrArg List.length (map_fst_numbered n ps)
  simpa using tokens

/-- The line at a number is that of the text up to the item with this number. -/
lemma lineAt_of_divides {s ps last e} (d : Divides s ps last e) (i : Nat) :
    (ofChars 1 s).lineAt i = 1 + newlines (textUpTo ps last (i + 1)) := by
  rw [d.ofChars, lineAt, textUpTo]
  by_cases less : i < ps.length
  · rw [numbered_getElem? less, if_pos (Nat.succ_le_of_lt less)]
    rfl
  · have out : (numbered 1 ps)[i]? = none := by
      rw [List.getElem?_eq_none_iff, length_numbered]
      exact Nat.le_of_not_lt less
    rw [out, if_neg (mt Nat.lt_of_succ_le less), ← d.eq_joined]
    rfl

end Lexed

/-! ## There is only one division -/

/-- A text has no second division. -/
lemma Divides.unique {s ps last e} (d : Divides s ps last e) :
    ∀ {ps' last' e'}, Divides s ps' last' e' → ps' = ps ∧ last' = last ∧ e' = e := by
  induction d with
  | @ended gap tail e tr ta =>
    intro ps' last' e' d'
    have found : scan 0 (gap ++ tail) = _ := ta.scan tr
    generalize gap ++ tail = s at found d'
    cases d' with
    | ended tr' ta' =>
      rw [ta'.scan tr'] at found
      cases e <;> cases e' <;> first | exact ⟨rfl, rfl, rfl⟩ | cases found
    | piece tr' sp' _ =>
      rw [sp'.scan tr'] at found
      cases e <;> cases found
  | @piece gap t text rest ps last e tr sp _ ih =>
    intro ps' last' e' d'
    -- What is found gives the token and the rest; where it is found gives the gap and the spelling.
    have found : scan 0 (gap ++ (text ++ rest)) = _ := sp.scan tr
    have start : skip 0 .blanks (gap ++ (text ++ rest)) = .before (newlines gap) (text ++ rest) := by
      rw [tr.skip_append, sp.skip, Nat.zero_add]
    generalize e : gap ++ (text ++ rest) = s at found start d'
    cases d' with
    | @ended _ _ e' tr' ta' =>
      rw [ta'.scan tr'] at found
      cases e' <;> cases found
    | @piece gap' t' text' rest' ps' _ _ tr' sp' d' =>
      rw [sp'.scan tr'] at found
      rw [tr'.skip_append, sp'.skip] at start
      injection found with et _ er
      injection start with _ es
      subst et er
      obtain ⟨rfl, rfl, rfl⟩ := ih d'
      have ex : text' = text := List.append_cancel_right es
      subst ex
      have eg : gap = gap' := List.append_cancel_right e
      subst eg
      exact ⟨rfl, rfl, rfl⟩

/-! ## The tokens that a stream delivers -/

/-- The stream delivers the tokens one after the other and then nothing more. -/
inductive TokenStream.Yields : TokenStream → List Token → Prop
  | ended {s s' : TokenStream} : s.next? = (none, s') → Yields s []
  | token {s s' : TokenStream} {t ts} : s.next? = (some (.ok t), s') → Yields s' ts →
    Yields s (t :: ts)

namespace TokenStream
variable {s : TokenStream}

/-- A stream before a token delivers it and goes on behind it. -/
lemma next?_of_spells {gap t text rest} (fin : s.finished = false)
    (e : s.rest = gap ++ (text ++ rest)) (tr : Trivia gap) (sp : Spells t text rest) :
    s.next? = (some (.ok t), ⟨rest, s.line + newlines (gap ++ text), false⟩) := by
  have pulled : s.pull = (.ok t, ⟨rest, s.line + newlines (gap ++ text), false⟩) := by
    rw [pull, e, sp.scan tr, ← fin]
  rw [next?, fin, pulled]
  simp [sp.not_isEof]

/-- A stream behind the last token delivers nothing, or the failure to reach the end. -/
lemma next?_of_tail {gap tail e} (fin : s.finished = false) (eq : s.rest = gap ++ tail)
    (tr : Trivia gap) (ta : Tail tail e) :
    s.next?.1 = (e.failure (s.line + newlines s.rest)).map .error := by
  rw [next?, fin, pull, eq, ta.scan tr]
  cases e <;> rfl

/-- A stream delivers the tokens of the pieces if the text ends in a gap. -/
lemma Yields.of_divides {ps last} (fin : s.finished = false)
    (d : Divides s.rest ps last .closed) : s.Yields (ps.map Piece.token) := by
  generalize er : s.rest = r at d
  generalize ee : Ending.closed = e at d
  induction d generalizing s with
  | ended tr ta =>
    subst ee
    have none : s.next?.1 = _ := next?_of_tail fin er tr ta
    exact .ended (Prod.ext none rfl)
  | piece tr sp _ ih =>
    have next := next?_of_spells fin er tr sp
    exact .token next (ih rfl rfl ee)

/-- A stream that delivers tokens and then nothing reads a text with these tokens. -/
lemma Yields.divides {ts} (y : s.Yields ts) (fin : s.finished = false) :
    ∃ ps last, Divides s.rest ps last .closed ∧ ps.map Piece.token = ts := by
  induction y with
  | @ended s s' next =>
    obtain ⟨ps, last, e, d⟩ := exists_divides s.rest
    generalize er : s.rest = r at d
    cases d with
    | @ended gap tail e tr ta =>
      have none := next?_of_tail fin er tr ta
      rw [next] at none
      cases e with
      | closed => exact ⟨_, _, .ended tr ta, rfl⟩
      | cut => cases none
    | piece tr sp _ =>
      rw [next?_of_spells fin er tr sp] at next
      cases next
  | @token s s' t ts next _ ih =>
    obtain ⟨ps, last, e, d⟩ := exists_divides s.rest
    generalize er : s.rest = r at d
    cases d with
    | ended tr ta =>
      have none := next?_of_tail fin er tr ta
      rw [next] at none
      cases e <;> cases none
    | piece tr sp _ =>
      rw [next?_of_spells fin er tr sp] at next
      cases next
      obtain ⟨ps, last, d, rfl⟩ := ih rfl
      exact ⟨_, last, .piece tr sp d, rfl⟩

end TokenStream

/-- A stream delivers the tokens that its text is read as at once. -/
lemma TokenStream.yields_iff_ofSource (source : String) (ts : List Token) :
    (ofSource source).Yields ts ↔
      (Lexed.ofSource source).failure = none ∧ (Lexed.ofSource source).tokens.map Prod.fst = ts := by
  obtain ⟨ps, last, e, d⟩ := exists_divides source.toList
  have read : Lexed.ofSource source = _ := d.ofChars
  rw [read, map_fst_numbered]
  constructor
  · intro y
    obtain ⟨ps', last', d', rfl⟩ := y.divides rfl
    obtain ⟨rfl, -, rfl⟩ := d.unique d'
    exact ⟨rfl, rfl⟩
  · rintro ⟨closed, rfl⟩
    cases e with
    | closed => exact .of_divides rfl d
    | cut => cases closed

/-- A text is read without a failure and as the given tokens just if it consists of them and of
the gaps between them, and then it can be divided in this way only. -/
theorem yields_iff_divides (source : String) (ts : List Token) :
    (TokenStream.ofSource source).Yields ts ↔
      ∃ ps last, Divides source.toList ps last .closed ∧ source.toList = joined ps ++ last ∧
        ps.map Piece.token = ts ∧
        ∀ ps' last' e', Divides source.toList ps' last' e' → ps' = ps ∧ last' = last := by
  constructor
  · intro y
    obtain ⟨ps, last, d, e⟩ := y.divides rfl
    refine ⟨ps, last, d, d.eq_joined, e, ?_⟩
    intro ps' last' e' d'
    obtain ⟨eps, elast, _⟩ := d.unique d'
    exact ⟨eps, elast⟩
  · rintro ⟨ps, last, d, _, rfl, _⟩
    exact .of_divides rfl d

end EnumGen
