import EnumGen.Proofs.Token.Scan

/-!
# Writing tokens out

Tokens are `Written` as a text if the text is put together from their spellings and from gaps of
any kind, where a gap between two words is not empty. That is a recipe for writing, and it says
nothing about what may follow a token. Still it comes to the same as a division of the text
(`Written.divides`, `Divides.written`), since an empty gap is left only where no word goes on.
-/

namespace EnumGen

/-! ## Spellings -/

/-- What a token of the kind is written as, where the kind settles it. -/
def TokenKind.text? : TokenKind → Option String
  | eof | ident | tag | other => none
  | eq => some "="
  | lbrace => some "\x7b"
  | rbrace => some "\x7d"
  | package => some "package"
  | type => some "type"
  | enum => some "enum"
  | int t => some t.name

/-- Tokens of the kind are words. -/
def TokenKind.IsWord (kind : TokenKind) : Prop :=
  kind = .ident ∨ kind ∈ TokenKind.reserved.map Prod.snd

/-- What the token is written as. -/
def Token.spelling (t : Token) : List Char :=
  if t.kind = .tag then backtick :: t.lexeme.toList ++ [backtick] else t.lexeme.toList

/-- The token occurs in some text. -/
def Token.Occurs (t : Token) : Prop :=
  ∃ text rest, Spells t text rest

/-- A word that is not reserved. -/
def IsIdentifier (s : String) : Prop :=
  IsWord s.toList ∧ ¬Reserved s

instance : DecidablePred IsIdentifier :=
  fun s => inferInstanceAs (Decidable (IsWord s.toList ∧ ¬Reserved s))

lemma IsIdentifier.letterOrDigit {s : String} (id : IsIdentifier s) :
    ∀ c ∈ s.toList, LetterOrDigit c := by
  obtain ⟨c, r, e, l, ls⟩ := id.1
  rw [e, List.forall_mem_cons]
  exact ⟨.inl l, ls⟩

lemma IsIdentifier.not_mem {s : String} {c : Char} (id : IsIdentifier s) (no : ¬isWordChar c) :
    c ∉ s.toList :=
  fun mem => no (isWordChar_iff.mpr (id.letterOrDigit c mem))

lemma IsIdentifier.backtick_not_mem {s : String} (id : IsIdentifier s) : backtick ∉ s.toList :=
  id.not_mem (by decide)

lemma text?_of_mem_reserved {p : String × TokenKind} (h : p ∈ TokenKind.reserved) :
    p.2.text? = some p.1 ∧ p.2 ≠ .tag ∧ p.2 ≠ .ident := by
  revert p
  decide

/-- A token is written in one way only. -/
lemma Spells.eq_spelling {t text rest} (sp : Spells t text rest) : text = t.spelling := by
  cases sp with
  | keyword _ mem _ =>
    obtain ⟨_, tag, _⟩ := text?_of_mem_reserved mem
    simp [Token.spelling, tag]
  | _ => simp [Token.spelling]

/-- The kind settles the lexeme where it settles what is written. -/
lemma Spells.lexeme_of_text? {t text rest l} (sp : Spells t text rest)
    (fixed : t.kind.text? = some l) : t.lexeme = l := by
  cases sp with
  | keyword _ mem _ =>
    rw [(text?_of_mem_reserved mem).1] at fixed
    exact Option.some.inj fixed
  | eq | lbrace | rbrace => exact Option.some.inj fixed
  | name | tag | other => cases fixed

lemma occurs_ident {n : String} : Token.Occurs ⟨.ident, n⟩ ↔ IsIdentifier n := by
  constructor
  · rintro ⟨text, rest, sp⟩
    cases sp with
    | keyword _ mem _ => exact absurd rfl (text?_of_mem_reserved mem).2.2
    | name word free _ =>
      refine ⟨?_, free⟩
      rwa [String.toList_ofList]
  · rintro ⟨word, free⟩
    rw [← String.ofList_toList (s := n)] at free ⊢
    exact ⟨_, [], .name word free nofun⟩

lemma occurs_tag {s : String} : Token.Occurs ⟨.tag, s⟩ ↔ backtick ∉ s.toList := by
  constructor
  · rintro ⟨text, rest, sp⟩
    cases sp with
    | keyword _ mem _ => exact absurd rfl (text?_of_mem_reserved mem).2.1
    | tag no => rwa [String.toList_ofList]
  · intro no
    rw [← String.ofList_toList (s := s)]
    exact ⟨_, [], .tag no⟩

/-- A kind that settles its lexeme occurs with it. -/
lemma occurs_of_text? {kind : TokenKind} {l : String} (fixed : kind.text? = some l) :
    Token.Occurs ⟨kind, l⟩ := by
  have word : ∀ p ∈ TokenKind.reserved, IsWord p.1.toList := by decide
  have keyword {l kind} (mem : (l, kind) ∈ TokenKind.reserved) : Token.Occurs ⟨kind, l⟩ := by
    have w := word _ mem
    rw [← String.ofList_toList (s := l)] at mem ⊢
    exact ⟨_, [], .keyword w mem nofun⟩
  cases kind with
  | eof | ident | tag | other => cases fixed
  | eq => cases fixed; exact ⟨_, [], .eq⟩
  | lbrace => cases fixed; exact ⟨_, [], .lbrace⟩
  | rbrace => cases fixed; exact ⟨_, [], .rbrace⟩
  | package | type | enum => cases fixed; exact keyword (by decide)
  | int t => cases fixed; exact keyword (by cases t <;> decide)

/-! ## Boundaries -/

/-- What stands behind a word stops it. -/
lemma Spells.stop {t text rest} (sp : Spells t text rest) (word : t.kind.IsWord) :
    ∀ c ∈ rest.head?, ¬LetterOrDigit c := by
  cases sp with
  | keyword _ _ stop | name _ _ stop => exact stop
  | _ => exact absurd word (by simp [TokenKind.IsWord, TokenKind.reserved])

/-- A word starts with a letter. -/
lemma Spells.head_of_isWord {t text rest} (sp : Spells t text rest) (word : t.kind.IsWord) :
    ∃ c r, text = c :: r ∧ LetterOrDigit c := by
  cases sp with
  | keyword w _ _ | name w _ _ =>
    obtain ⟨c, r, rfl, l, _⟩ := w
    exact ⟨c, r, rfl, .inl l⟩
  | _ => exact absurd word (by simp [TokenKind.IsWord, TokenKind.reserved])

/-- A token that occurs may stand wherever its last word is stopped. -/
lemma Token.Occurs.spells {t : Token} {rest} (oc : t.Occurs) (other : t.kind ≠ .other)
    (stop : t.kind.IsWord → ∀ c ∈ rest.head?, ¬LetterOrDigit c) : Spells t t.spelling rest := by
  obtain ⟨text, rest', sp⟩ := oc
  rw [← sp.eq_spelling]
  cases sp with
  | keyword w mem _ => exact .keyword w mem (stop (.inr (List.mem_map_of_mem mem)))
  | name w free _ => exact .name w free (stop (.inl rfl))
  | tag no => exact .tag no
  | eq => exact .eq
  | lbrace => exact .lbrace
  | rbrace => exact .rbrace
  | other => exact absurd rfl other

/-! ## Texts that are put together -/

/-- The tokens are written out, each with the gap behind it, which is not empty between two words.
Behind the last one may stand a line comment that nothing ends. -/
inductive Written : List Token → List Char → Prop
  | ended {tail} : Tail tail .closed → Written [] tail
  | token {t gap ts s} : Trivia gap → (t.kind.IsWord → ∀ u ∈ ts.head?, u.kind.IsWord → gap ≠ []) →
    Written ts s → Written (t :: ts) (t.spelling ++ (gap ++ s))

/-- Tokens of any kind are written with a blank behind each of them. -/
lemma written_spaced (ts : List Token) : Written ts (ts.flatMap fun t => t.spelling ++ [' ']) := by
  induction ts with
  | nil => exact .ended .nil
  | cons t ts ih =>
    have blank : Trivia [' '] := .blank rfl .nil
    rw [List.flatMap_cons, List.append_assoc]
    exact .token blank (fun _ _ _ _ => List.cons_ne_nil ' ' []) ih

lemma Trivia.stop {gap s} (tr : Trivia gap) (ne : gap ≠ []) :
    ∀ c ∈ (gap ++ s).head?, ¬LetterOrDigit c := by
  intro d mem
  rw [← isWordChar_iff]
  cases tr with
  | nil => exact absurd rfl ne
  | blank b _ =>
    cases mem
    simp only [isBlank, Bool.or_eq_true, decide_eq_true_eq] at b
    rcases b with ((rfl | rfl) | rfl) | rfl <;> decide
  | line | block =>
    cases mem
    decide

/-- What is written without a word in front does not start with a letter or digit. -/
lemma Written.stop {ts s} (w : Written ts s) (oc : ∀ t ∈ ts, t.kind ≠ .other ∧ t.Occurs)
    (word : ∀ t ∈ ts.head?, ¬t.kind.IsWord) : ∀ c ∈ s.head?, ¬LetterOrDigit c := by
  intro d mem
  rw [← isWordChar_iff]
  cases w with
  | ended ta =>
    cases ta with
    | nil => cases mem
    | lineComment _ => cases mem; decide
  | @token t gap ts s _ _ _ =>
    obtain ⟨other, text, rest, sp⟩ := oc t List.mem_cons_self
    have no := word t rfl
    rw [← sp.eq_spelling] at mem
    cases sp with
    | keyword _ in' _ => exact absurd (.inr (List.mem_map_of_mem in')) no
    | name => exact absurd (.inl rfl) no
    | other => exact absurd rfl other
    | tag | eq | lbrace | rbrace => cases mem; decide

/-- A text that tokens are written as is divided into these tokens. -/
lemma Written.divides {ts s gap} (w : Written ts s) (oc : ∀ t ∈ ts, t.kind ≠ .other ∧ t.Occurs)
    (tr : Trivia gap) : ∃ ps last, Divides (gap ++ s) ps last .closed ∧
      ps.map Piece.token = ts := by
  induction w generalizing gap with
  | ended ta => exact ⟨[], _, .ended tr ta, rfl⟩
  | @token t gap' ts s tr' apart w ih =>
    have oc' : ∀ t ∈ ts, t.kind ≠ .other ∧ t.Occurs := fun u mem => oc u (List.mem_cons_of_mem t mem)
    obtain ⟨ps, last, d, rfl⟩ := ih oc' tr'
    obtain ⟨other, occurs⟩ := oc t List.mem_cons_self
    have sp : Spells t t.spelling (gap' ++ s) := by
      apply occurs.spells other
      intro word
      -- Either the gap stops the word, or there is none and what follows is no word.
      by_cases ne : gap' = []
      · subst ne
        exact w.stop oc' fun u mem word' => apart word u mem word' rfl
      · exact tr'.stop ne
    exact ⟨_, last, .piece tr sp d, rfl⟩

/-- Where a word is written first, the text starts with a letter. -/
lemma Written.start {ts s t} (w : Written ts s) (first : t ∈ ts.head?) (oc : t.Occurs)
    (word : t.kind.IsWord) : ∃ c ∈ s.head?, LetterOrDigit c := by
  obtain ⟨text, rest, sp⟩ := oc
  obtain ⟨c, r, rfl, l⟩ := sp.head_of_isWord word
  cases w with
  | ended => cases first
  | token =>
    cases first
    rw [← sp.eq_spelling]
    exact ⟨c, rfl, l⟩

lemma Divides.occurs {s ps last e} (d : Divides s ps last e) :
    ∀ t ∈ ps.map Piece.token, t.Occurs := by
  induction d with
  | ended => exact nofun
  | piece _ sp _ ih =>
    rw [List.map_cons, List.forall_mem_cons]
    exact ⟨⟨_, _, sp⟩, ih⟩

/-- A divided text is what its tokens are written as, behind a gap. -/
lemma Divides.written {s ps last e} (d : Divides s ps last e) (closed : e = .closed) :
    ∃ gap r, s = gap ++ r ∧ Trivia gap ∧ Written (ps.map Piece.token) r := by
  induction d with
  | ended tr ta =>
    subst closed
    exact ⟨_, _, rfl, tr, .ended ta⟩
  | @piece gap t text rest ps last e tr sp d ih =>
    obtain ⟨gap', r, rfl, tr', w⟩ := ih closed
    refine ⟨gap, _, rfl, tr, ?_⟩
    rw [sp.eq_spelling]
    refine .token tr' (fun word u mem word' => ?_) w
    rintro rfl
    -- Without a gap the letters of the next word would belong to this one.
    have oc : u.Occurs := d.occurs u (List.mem_of_mem_head? mem)
    obtain ⟨c, first, l⟩ := w.start mem oc word'
    exact sp.stop word c first l

end EnumGen
