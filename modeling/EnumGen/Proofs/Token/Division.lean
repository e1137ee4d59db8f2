import EnumGen.Token.Stream
import Mathlib.Data.List.TakeWhile
import Mathlib.Tactic.Lemma

/-!
# The division of a text into tokens

How a text is made up of tokens and the gaps between them, without reference to how it is read.
`Trivia` describes the gaps: blanks, line comments and block comments. `Spells` describes the
tokens together with what may follow them, since a word goes on as far as it can and a slash
before a slash or a star opens a comment. `Tail` describes what a text may end in when no token
follows. `Divides` puts the three together.

The main statement is that every text has a division (`exists_divides`). That it has no second
one is shown where divisions are compared with what is read (`Divides.unique`).
-/

namespace EnumGen

/-! ## Words -/

/-- An ASCII letter or an underscore. -/
def Letter (c : Char) : Prop :=
  'A' ≤ c ∧ c ≤ 'Z' ∨ 'a' ≤ c ∧ c ≤ 'z' ∨ c = '_'

/-- An ASCII letter, an underscore or an ASCII digit. -/
def LetterOrDigit (c : Char) : Prop :=
  Letter c ∨ '0' ≤ c ∧ c ≤ '9'

/-- A letter with letters and digits behind it. -/
def IsWord (w : List Char) : Prop :=
  ∃ c r, w = c :: r ∧ Letter c ∧ ∀ d ∈ r, LetterOrDigit d

/-- The text is one of the reserved words. -/
def Reserved (s : String) : Prop :=
  s ∈ TokenKind.reserved.map Prod.fst

lemma isWordStart_iff {c : Char} : isWordStart c ↔ Letter c := by
  have upper : c.isUpper ↔ 'A' ≤ c ∧ c ≤ 'Z' := decide_eq_true_iff
  have lower : c.isLower ↔ 'a' ≤ c ∧ c ≤ 'z' := by
    change (decide ('a' ≤ c) && decide (c ≤ 'z')) = true ↔ _
    simp only [Bool.and_eq_true, decide_eq_true_eq]
  have alpha : c.isAlpha ↔ c.isUpper ∨ c.isLower := Bool.or_eq_true_iff
  simp only [isWordStart, Letter, Bool.or_eq_true, decide_eq_true_eq, alpha, upper, lower, or_assoc]

lemma isWordChar_iff {c : Char} : isWordChar c ↔ LetterOrDigit c := by
  have digit : c.isDigit ↔ '0' ≤ c ∧ c ≤ '9' := by
    change (decide ('0' ≤ c) && decide (c ≤ '9')) = true ↔ _
    simp only [Bool.and_eq_true, decide_eq_true_eq]
  simp only [isWordChar, LetterOrDigit, Bool.or_eq_true, isWordStart_iff, digit]

lemma isWord_iff {w : List Char} :
    IsWord w ↔ w.head?.any isWordStart ∧ w.tail.all isWordChar := by
  cases w with
  | nil => simp [IsWord]
  | cons c r =>
    simp only [List.head?_cons, Option.any_some, List.tail_cons, List.all_eq_true, isWordStart_iff,
      isWordChar_iff]
    constructor
    · rintro ⟨_, _, e, l, ls⟩
      cases e
      exact ⟨l, ls⟩
    · rintro ⟨l, ls⟩
      exact ⟨c, r, rfl, l, ls⟩

instance : DecidablePred IsWord :=
  fun _ => decidable_of_iff _ isWord_iff.symm

instance : DecidablePred Reserved :=
  fun s => inferInstanceAs (Decidable (s ∈ TokenKind.reserved.map Prod.fst))

/-! ## Gaps and tokens -/

/-- A star with a slash behind it stands in the text, so the text closes a block comment. -/
def HasCloser (s : List Char) : Prop :=
  ['*', '/'] <:+: s

/-- A gap between two tokens: blanks, line comments with the newline that ends them, and block
comments up to the first closer behind the two characters that open them. -/
inductive Trivia : List Char → Prop
  | nil : Trivia []
  | blank {c g} : isBlank c → Trivia g → Trivia (c :: g)
  | line {text g} : '\n' ∉ text → Trivia g → Trivia ('/' :: '/' :: text ++ '\n' :: g)
  | block {text g} :
    ¬HasCloser (text ++ ['*']) → Trivia g → Trivia ('/' :: '*' :: text ++ '*' :: '/' :: g)

/-- The token `t` is written as `text` where `rest` follows. -/
inductive Spells : Token → List Char → List Char → Prop
  /-- a reserved word, of the kind it is reserved for -/
  | keyword {w kind rest} : IsWord w → (String.ofList w, kind) ∈ TokenKind.reserved →
    (∀ c ∈ rest.head?, ¬LetterOrDigit c) → Spells ⟨kind, String.ofList w⟩ w rest
  /-- any other word -/
  | name {w rest} : IsWord w → ¬Reserved (String.ofList w) →
    (∀ c ∈ rest.head?, ¬LetterOrDigit c) → Spells ⟨.ident, String.ofList w⟩ w rest
  | tag {text rest} : backtick ∉ text →
    Spells ⟨.tag, String.ofList text⟩ (backtick :: text ++ [backtick]) rest
  | eq {rest} : Spells ⟨.eq, "="⟩ ['='] rest
  | lbrace {rest} : Spells ⟨.lbrace, "\x7b"⟩ ['\x7b'] rest
  | rbrace {rest} : Spells ⟨.rbrace, "\x7d"⟩ ['\x7d'] rest
  /-- a character with no other meaning; a slash is one unless it opens a comment or ends the
  text -/
  | other {c rest} : ¬isBlank c → ¬Letter c → c ∉ ['=', '\x7b', '\x7d', backtick] →
    (c = '/' → ∃ d r, rest = d :: r ∧ d ≠ '/' ∧ d ≠ '*') →
    Spells ⟨.other, String.singleton c⟩ [c] rest

/-- How a text ends behind its last token. -/
inductive Ending
  /-- with a gap -/
  | closed
  /-- inside a comment or a tag, or with a slash -/
  | cut
  deriving DecidableEq, Repr

/-- What a text may end in, behind its last gap. -/
inductive Tail : List Char → Ending → Prop
  | nil : Tail [] .closed
  | lineComment {text} : '\n' ∉ text → Tail ('/' :: '/' :: text) .closed
  | slash : Tail ['/'] .cut
  | blockComment {text} : ¬HasCloser text → Tail ('/' :: '*' :: text) .cut
  | tag {text} : backtick ∉ text → Tail (backtick :: text) .cut

/-- A token of a text, the gap before it and the text it is written as. -/
structure Piece where
  gap : List Char
  token : Token
  text : List Char
  deriving DecidableEq, Repr

/-- The pieces put one behind the other. -/
def joined (ps : List Piece) : List Char :=
  ps.flatMap fun p => p.gap ++ p.text

/-- The text consists of the pieces and of what is left behind the last token. -/
inductive Divides : List Char → List Piece → List Char → Ending → Prop
  | ended {gap tail e} : Trivia gap → Tail tail e → Divides (gap ++ tail) [] (gap ++ tail) e
  | piece {gap t text rest ps last e} : Trivia gap → Spells t text rest →
    Divides rest ps last e → Divides (gap ++ (text ++ rest)) (⟨gap, t, text⟩ :: ps) last e

/-- No character is lost between the pieces. -/
lemma Divides.eq_joined {s ps last e} (d : Divides s ps last e) : s = joined ps ++ last := by
  induction d with
  | ended _ _ => rfl
  | piece _ _ _ ih => simp only [joined, List.flatMap_cons, List.append_assoc] at ih ⊢; rw [ih]

/-! ## Every text has a division -/

/-- A text with a closer in it goes on to the first one. -/
lemma HasCloser.first {s : List Char} (h : HasCloser s) :
    ∃ text rest, s = text ++ '*' :: '/' :: rest ∧ ¬HasCloser (text ++ ['*']) := by
  induction s with
  | nil => simp [HasCloser] at h
  | cons c s ih =>
    rcases List.infix_cons_iff.mp h with here | later
    · obtain ⟨rest, e⟩ := here
      exact ⟨[], rest, by simpa using e.symm, by simp [HasCloser, List.infix_cons_iff]⟩
    · by_cases here : ['*', '/'] <+: c :: s
      · obtain ⟨rest, e⟩ := here
        exact ⟨[], rest, by simpa using e.symm, by simp [HasCloser, List.infix_cons_iff]⟩
      · obtain ⟨text, rest, rfl, nc⟩ := ih later
        refine ⟨c :: text, rest, rfl, ?_⟩
        intro hc
        rcases List.infix_cons_iff.mp hc with pre | inf
        · apply here
          exact pre.trans (by simp)
        · exact nc inf

/-- What stands behind a gap: a token, or nothing but the end of the text. -/
inductive Onset : List Char → Prop
  | token {t text rest} : Spells t text rest → Onset (text ++ rest)
  | tail {s e} : Tail s e → Onset s

/-- The word at the start of a text goes on to the first character that is no letter or digit. -/
lemma onset_word {c : Char} (s : List Char) (l : Letter c) : Onset (c :: s) := by
  have word : IsWord (c :: s.takeWhile isWordChar) := by
    refine ⟨c, _, rfl, l, ?_⟩
    intro d hd
    exact isWordChar_iff.mp (List.mem_takeWhile_imp hd)
  have stop : ∀ d ∈ (s.dropWhile isWordChar).head?, ¬LetterOrDigit d := by
    intro d hd
    rw [← isWordChar_iff, Bool.not_eq_true]
    have h := List.head?_dropWhile_not isWordChar s
    rw [Option.mem_def.mp hd] at h
    exact h
  have split : c :: s = (c :: s.takeWhile isWordChar) ++ s.dropWhile isWordChar := by
    rw [List.cons_append, List.takeWhile_append_dropWhile]
  rw [split]
  by_cases res : Reserved (String.ofList (c :: s.takeWhile isWordChar))
  · obtain ⟨⟨w, kind⟩, mem, e⟩ := List.mem_map.mp res
    cases e
    exact .token (.keyword word mem stop)
  · exact .token (.name word res stop)

lemma onset_tag (s : List Char) : Onset (backtick :: s) := by
  by_cases mem : backtick ∈ s
  · obtain ⟨text, rest, rfl, nm⟩ := List.eq_append_cons_of_mem mem
    have sp : Spells _ (backtick :: text ++ [backtick]) rest := .tag nm
    simpa using Onset.token sp
  · exact .tail (.tag mem)

/-- Any character but a blank or a slash starts a token or an open tag. -/
lemma onset_of_ne_slash {c : Char} (s : List Char) (b : ¬isBlank c) (ne : c ≠ '/') :
    Onset (c :: s) := by
  by_cases l : Letter c
  · exact onset_word s l
  by_cases tag : c = backtick
  · rw [tag]
    exact onset_tag s
  by_cases eq : c = '='
  · rw [eq]
    exact .token .eq
  by_cases lb : c = '\x7b'
  · rw [lb]
    exact .token .lbrace
  by_cases rb : c = '\x7d'
  · rw [rb]
    exact .token .rbrace
  · exact .token (.other b l (by simp [eq, lb, rb, tag]) fun e => absurd e ne)

/-- Every text starts with a gap, and a token or its end stands behind that. -/
lemma exists_onset (s : List Char) : ∃ gap r, s = gap ++ r ∧ Trivia gap ∧ Onset r := by
  -- On the length, since a comment takes more than one character at a time.
  induction n : s.length using Nat.strongRecOn generalizing s with
  | _ n ih =>
    subst n
    cases s with
    | nil => exact ⟨[], [], rfl, .nil, .tail .nil⟩
    | cons c s =>
      by_cases b : isBlank c
      · obtain ⟨gap, r, rfl, tr, on⟩ := ih s.length (by simp) s rfl
        exact ⟨c :: gap, r, rfl, .blank b tr, on⟩
      by_cases sl : c ≠ '/'
      · exact ⟨[], _, rfl, .nil, onset_of_ne_slash s b sl⟩
      rw [not_not.mp sl]
      cases s with
      | nil => exact ⟨[], ['/'], rfl, .nil, .tail .slash⟩
      | cons d s =>
        by_cases d₁ : d = '/'
        · rw [d₁]
          by_cases nl : '\n' ∈ s
          · obtain ⟨text, s, rfl, nm⟩ := List.eq_append_cons_of_mem nl
            obtain ⟨gap, r, rfl, tr, on⟩ := ih s.length (by simp; omega) s rfl
            exact ⟨_, r, by simp, .line nm tr, on⟩
          · exact ⟨[], _, rfl, .nil, .tail (.lineComment nl)⟩
        by_cases d₂ : d = '*'
        · rw [d₂]
          by_cases cl : HasCloser s
          · obtain ⟨text, s, rfl, nc⟩ := cl.first
            obtain ⟨gap, r, rfl, tr, on⟩ := ih s.length (by simp; omega) s rfl
            exact ⟨_, r, by simp, .block nc tr, on⟩
          · exact ⟨[], _, rfl, .nil, .tail (.blockComment cl)⟩
        · have sp : Spells ⟨.other, String.singleton '/'⟩ ['/'] (d :: s) :=
            .other (by decide) (by simp [← isWordStart_iff]; decide) (by decide)
              fun _ => ⟨d, s, rfl, d₁, d₂⟩
          exact ⟨[], _, rfl, .nil, .token sp⟩

lemma Spells.ne_nil {t text rest} (sp : Spells t text rest) : text ≠ [] := by
  cases sp with
  | keyword w _ _ | name w _ _ =>
    obtain ⟨c, r, rfl, _⟩ := w
    exact List.cons_ne_nil c r
  | _ => simp

/-- Every text has a division. -/
lemma exists_divides (s : List Char) : ∃ ps last e, Divides s ps last e := by
  induction n : s.length using Nat.strongRecOn generalizing s with
  | _ n ih =>
    subst n
    obtain ⟨gap, r, rfl, tr, on⟩ := exists_onset s
    cases on with
    | tail ta => exact ⟨[], _, _, .ended tr ta⟩
    | @token t text rest sp =>
      have shorter : rest.length < (gap ++ (text ++ rest)).length := by
        have := List.length_pos_iff.mpr sp.ne_nil
        simp only [List.length_append]
        omega
      obtain ⟨ps, last, e, d⟩ := ih rest.length shorter rest rfl
      exact ⟨_, last, e, .piece tr sp d⟩

end EnumGen
