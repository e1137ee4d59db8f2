import EnumGen.Proofs.Token.Division

/-!
# Scanning a divided text

What `skip`, `readToken` and `scan` do on a text whose division is known: a gap is passed over
(`Trivia.skip_append`), a token is read whole and nothing behind it (`Spells.scan`), and a text
that ends in a gap or in an open comment or tag is recognised as such (`Tail.scan`). Each time the
line number moves by the newlines that were passed. Since every text has a division, the converse
follows: what `scan` finds is a gap with a token behind it (`scan_eq_token`).
-/

namespace EnumGen

/-! ## Gaps -/

lemma newlines_of_ne {c : Char} (h : c ≠ '\n') : newlines [c] = 0 := by
  simp [newlines, h]

lemma newlines_of_not_mem {s : List Char} (h : '\n' ∉ s) : newlines s = 0 :=
  List.count_eq_zero.mpr h

/-- A line comment is passed over with its newline. -/
lemma skip_lineComment {line text r} (nl : '\n' ∉ text) :
    skip line .lineComment (text ++ '\n' :: r) = skip (line + 1) .blanks r := by
  induction text with
  | nil => rfl
  | cons c text ih =>
    rw [List.mem_cons, not_or] at nl
    rw [List.cons_append, skip, if_neg (Ne.symm nl.1)]
    exact ih nl.2

lemma skip_lineComment_eq_before {line text} (nl : '\n' ∉ text) :
    skip line .lineComment text = .before line [] := by
  induction text with
  | nil => rfl
  | cons c text ih =>
    rw [List.mem_cons, not_or] at nl
    rw [skip, if_neg (Ne.symm nl.1)]
    exact ih nl.2

lemma HasCloser.cons {c : Char} {s : List Char} (h : HasCloser s) : HasCloser (c :: s) :=
  List.infix_cons_iff.mpr (.inr h)

lemma hasCloser_star_slash (s : List Char) : HasCloser ('*' :: '/' :: s) :=
  List.infix_cons_iff.mpr (.inl ⟨s, rfl⟩)

/-- A block comment is passed over up to its first closer, also when a star stands before it. -/
lemma skip_comment {line text r} :
    (¬HasCloser (text ++ ['*']) →
      skip line .blockComment (text ++ '*' :: '/' :: r) =
        skip (line + newlines text) .blanks r) ∧
    (¬HasCloser ('*' :: text ++ ['*']) →
      skip line .star (text ++ '*' :: '/' :: r) = skip (line + newlines text) .blanks r) := by
  -- The two states hand over to each other, so both are followed at once.
  induction text generalizing line with
  | nil => exact ⟨fun _ => rfl, fun _ => rfl⟩
  | cons c text ih =>
    rw [newlines_cons, ← Nat.add_assoc]
    constructor
    · intro nc
      by_cases star : c = '*'
      · subst star
        exact ih.2 nc
      · rw [List.cons_append, skip, if_neg star]
        exact ih.1 fun h => nc h.cons
    · intro nc
      by_cases slash : c = '/'
      · subst slash
        exact absurd (hasCloser_star_slash _) nc
      by_cases star : c = '*'
      · subst star
        exact ih.2 fun h => nc h.cons
      · rw [List.cons_append, skip, if_neg slash, if_neg star]
        exact ih.1 fun h => nc h.cons.cons

/-- A block comment without a closer goes on to the end, also when a star stands before it. -/
lemma skip_comment_eq_unclosed {line text} :
    (¬HasCloser text → skip line .blockComment text = .unclosed (line + newlines text)) ∧
    (¬HasCloser ('*' :: text) → skip line .star text = .unclosed (line + newlines text)) := by
  induction text generalizing line with
  | nil => exact ⟨fun _ => rfl, fun _ => rfl⟩
  | cons c text ih =>
    rw [newlines_cons, ← Nat.add_assoc]
    constructor
    · intro nc
      by_cases star : c = '*'
      · subst star
        exact ih.2 nc
      · rw [skip, if_neg star]
        exact ih.1 fun h => nc h.cons
    · intro nc
      by_cases slash : c = '/'
      · subst slash
        exact absurd (hasCloser_star_slash _) nc
      by_cases star : c = '*'
      · subst star
        exact ih.2 fun h => nc h.cons
      · rw [skip, if_neg slash, if_neg star]
        exact ih.1 fun h => nc h.cons.cons

/-- A gap is passed over. -/
lemma Trivia.skip_append {line g r} (tr : Trivia g) :
    skip line .blanks (g ++ r) = skip (line + newlines g) .blanks r := by
  induction tr generalizing line with
  | nil => rfl
  | @blank c g b _ ih =>
    have slash : c ≠ '/' := by
      rintro rfl
      exact absurd b (by decide)
    rw [List.cons_append, skip, if_neg slash, if_pos b, ih, newlines_cons c g, Nat.add_assoc]
  | @line text g nl _ ih =>
    rw [List.append_assoc]
    calc skip line .blanks ('/' :: '/' :: text ++ ('\n' :: g ++ r))
        = skip line .lineComment (text ++ '\n' :: (g ++ r)) := rfl
      _ = skip (line + 1) .blanks (g ++ r) := skip_lineComment nl
      _ = skip (line + newlines ('/' :: '/' :: text ++ '\n' :: g)) .blanks r := by
        have : newlines ('/' :: '/' :: text ++ '\n' :: g) = 1 + newlines g := by
          simp [newlines, List.count_eq_zero.mpr nl, Nat.add_comm]
        rw [ih, this, Nat.add_assoc]
  | @block text g nc _ ih =>
    rw [List.append_assoc]
    calc skip line .blanks ('/' :: '*' :: text ++ ('*' :: '/' :: g ++ r))
        = skip line .blockComment (text ++ '*' :: '/' :: (g ++ r)) := rfl
      _ = skip (line + newlines text) .blanks (g ++ r) := skip_comment.1 nc
      _ = skip (line + newlines ('/' :: '*' :: text ++ '*' :: '/' :: g)) .blanks r := by
        have : newlines ('/' :: '*' :: text ++ '*' :: '/' :: g) = newlines text + newlines g := by
          simp [newlines]
        rw [ih, this, Nat.add_assoc]

/-! ## Tokens -/

lemma ofWord?_of_mem {p : String × TokenKind} (h : p ∈ TokenKind.reserved) :
    TokenKind.ofWord? p.1 = some p.2 := by
  revert p
  decide

lemma ofWord?_eq_none {s : String} (h : ¬Reserved s) : TokenKind.ofWord? s = none := by
  apply List.lookup_eq_none_iff.mpr
  intro p hp
  rw [bne_iff_ne]
  rintro rfl
  exact h (List.mem_map_of_mem hp)

/-- A letter has no other meaning. -/
lemma Letter.not_special {c : Char} (l : Letter c) :
    ¬isBlank c ∧ c ∉ ['=', '/', '\x7b', '\x7d', backtick] := by
  rw [← isWordStart_iff] at l
  constructor
  · intro b
    simp only [isBlank, Bool.or_eq_true, decide_eq_true_eq] at b
    rcases b with ((rfl | rfl) | rfl) | rfl <;> exact absurd l (by decide)
  · intro mem
    simp only [List.mem_cons, List.not_mem_nil, or_false] at mem
    rcases mem with rfl | rfl | rfl | rfl | rfl <;> exact absurd l (by decide)

lemma LetterOrDigit.ne_newline {c : Char} (l : LetterOrDigit c) : c ≠ '\n' := by
  rintro rfl
  rw [← isWordChar_iff] at l
  exact absurd l (by decide)

lemma IsWord.newlines {w : List Char} (word : IsWord w) : newlines w = 0 := by
  obtain ⟨c, r, rfl, l, ls⟩ := word
  apply newlines_of_not_mem
  intro mem
  cases mem with
  | head => exact LetterOrDigit.ne_newline (.inl l) rfl
  | tail _ mem => exact (ls _ mem).ne_newline rfl

/-- A word is read up to the first character that is no letter or digit. -/
lemma IsWord.readToken {line w rest} (word : IsWord w)
    (stop : ∀ c ∈ rest.head?, ¬LetterOrDigit c) :
    readToken line (w ++ rest) = .token (Token.ofWord w) line rest := by
  obtain ⟨c, r, rfl, l, ls⟩ := word
  have all : ∀ d ∈ r, isWordChar d := fun d hd => isWordChar_iff.mpr (ls d hd)
  have none : rest.takeWhile isWordChar = [] ∧ rest.dropWhile isWordChar = rest := by
    cases rest with
    | nil => exact ⟨rfl, rfl⟩
    | cons d rest =>
      have no : ¬isWordChar d := fun h => stop d rfl (isWordChar_iff.mp h)
      exact ⟨List.takeWhile_cons_of_neg no, List.dropWhile_cons_of_neg no⟩
  rw [List.cons_append, EnumGen.readToken, if_pos (isWordStart_iff.mpr l),
    List.takeWhile_append_of_pos all, List.dropWhile_append_of_pos all, none.1, none.2,
    List.append_nil]

lemma bne_backtick {text : List Char} (nm : backtick ∉ text) :
    ∀ d ∈ text, (d != backtick) = true := by
  intro d hd
  rw [bne_iff_ne]
  rintro rfl
  exact nm hd

lemma readToken_tag {line text rest} (nm : backtick ∉ text) :
    readToken line (backtick :: text ++ [backtick] ++ rest) =
      .token ⟨.tag, String.ofList text⟩ (line + newlines text) rest := by
  have all := bne_backtick nm
  have split : backtick :: text ++ [backtick] ++ rest = backtick :: (text ++ backtick :: rest) := by
    simp
  have start : ¬isWordStart backtick := by decide
  have after : (backtick :: rest).dropWhile (· != backtick) = backtick :: rest :=
    List.dropWhile_cons_of_neg (by decide)
  have before : (backtick :: rest).takeWhile (· != backtick) = [] :=
    List.takeWhile_cons_of_neg (by decide)
  rw [split, readToken, if_neg start, if_pos rfl, List.dropWhile_append_of_pos all,
    List.takeWhile_append_of_pos all, after, before, List.append_nil]

lemma readToken_char {line c rest} (l : ¬Letter c) (tag : c ≠ backtick) :
    readToken line (c :: rest) = .token (Token.ofChar c) line rest := by
  rw [readToken, if_neg (mt isWordStart_iff.mp l), if_neg tag]

/-- A token is read whole, and nothing behind it. -/
lemma Spells.readToken {line t text rest} (sp : Spells t text rest) :
    readToken line (text ++ rest) = .token t (line + newlines text) rest := by
  cases sp with
  | @keyword w kind _ word mem stop =>
    rw [word.readToken stop, Token.ofWord, ofWord?_of_mem mem, word.newlines]
    rfl
  | @name w _ word res stop =>
    rw [word.readToken stop, Token.ofWord, ofWord?_eq_none res, word.newlines]
    rfl
  | @tag text _ nm =>
    have : newlines (backtick :: text ++ [backtick]) = newlines text := by
      simp [newlines, backtick]
    rw [readToken_tag nm, this]
  | eq | lbrace | rbrace => rfl
  | @other c _ b l special _ =>
    simp only [List.mem_cons, List.not_mem_nil, or_false, not_or] at special
    obtain ⟨eq, lb, rb, tag⟩ := special
    have nl : c ≠ '\n' := by
      rintro rfl
      exact b (by decide)
    rw [List.singleton_append, readToken_char l tag, newlines_of_ne nl, Token.ofChar, if_neg eq,
      if_neg lb, if_neg rb]
    rfl

/-- Where a token starts, no gap is left to pass over. -/
lemma Spells.skip {line t text rest} (sp : Spells t text rest) :
    skip line .blanks (text ++ rest) = .before line (text ++ rest) := by
  have stay {c : Char} {s : List Char} (slash : c ≠ '/') (b : ¬isBlank c) :
      EnumGen.skip line .blanks (c :: s) = .before line (c :: s) := by
    rw [EnumGen.skip, if_neg slash, if_neg b]
  have word {w : List Char} (word : IsWord w) :
      EnumGen.skip line .blanks (w ++ rest) = .before line (w ++ rest) := by
    obtain ⟨c, r, rfl, l, _⟩ := word
    obtain ⟨b, special⟩ := l.not_special
    exact stay (by rintro rfl; exact special (by decide)) b
  cases sp with
  | keyword w _ _ | name w _ _ => exact word w
  | tag _ => exact stay (by decide) (by decide)
  | eq | lbrace | rbrace => rfl
  | @other c _ b _ _ slash =>
    by_cases e : c = '/'
    · -- The slash is looked behind and then put back.
      obtain ⟨d, r, rfl, d₁, d₂⟩ := slash e
      subst e
      show EnumGen.skip line .slash (d :: r) = _
      rw [EnumGen.skip, if_neg d₁, if_neg d₂]
      rfl
    · exact stay e b

/-- A token behind a gap is found there and read whole. -/
lemma Spells.scan {line gap t text rest} (sp : Spells t text rest) (tr : Trivia gap) :
    scan line (gap ++ (text ++ rest)) =
      .token t (line + newlines (gap ++ text)) rest := by
  rw [EnumGen.scan, tr.skip_append, sp.skip]
  show EnumGen.readToken _ _ = _
  rw [sp.readToken, newlines_append, Nat.add_assoc]

/-! ## The end of the text -/

/-- What is found behind the last token of a text that ends in the given way. -/
def Ending.scan (line : Nat) : Ending → Scan
  | closed => .ended line
  | cut => .unclosed line

/-- Behind the last token nothing more is found. -/
lemma Tail.scan {line gap s e} (ta : Tail s e) (tr : Trivia gap) :
    scan line (gap ++ s) = e.scan (line + newlines (gap ++ s)) := by
  rw [EnumGen.scan, tr.skip_append, newlines_append, ← Nat.add_assoc]
  generalize line + newlines gap = line
  cases ta with
  | nil | slash => rfl
  | @lineComment text nl =>
    have skipped : EnumGen.skip line .blanks ('/' :: '/' :: text) = .before line [] :=
      skip_lineComment_eq_before nl
    have passed : newlines ('/' :: '/' :: text) = 0 := newlines_of_not_mem (by simpa using nl)
    rw [skipped, passed]
    rfl
  | @blockComment text nc =>
    have skipped : EnumGen.skip line .blanks ('/' :: '*' :: text) =
        .unclosed (line + newlines text) := skip_comment_eq_unclosed.1 nc
    have passed : newlines ('/' :: '*' :: text) = newlines text := by simp [newlines]
    rw [skipped, passed]
    rfl
  | @tag text nm =>
    have skipped : EnumGen.skip line .blanks (backtick :: text) =
        .before line (backtick :: text) := rfl
    have passed : newlines (backtick :: text) = newlines text := by simp [newlines, backtick]
    rw [skipped, passed]
    show EnumGen.readToken line (backtick :: text) = _
    rw [EnumGen.readToken, if_neg (by decide), if_pos rfl,
      List.dropWhile_eq_nil_iff.mpr (bne_backtick nm)]
    rfl

/-! ## What is found in any text -/

lemma scan_cases (line : Nat) (s : List Char) :
    (∃ t n r, scan line s = .token t n r) ∨ ∃ (e : Ending) (n : Nat), scan line s = e.scan n := by
  cases found : scan line s with
  | token t n r => exact .inl ⟨t, n, r, rfl⟩
  | ended n => exact .inr ⟨.closed, n, rfl⟩
  | unclosed n => exact .inr ⟨.cut, n, rfl⟩

/-- A token that is found has a gap before it and is written as it is read. -/
lemma scan_eq_token {line n : Nat} {s r : List Char} {t : Token} (h : scan line s = .token t n r) :
    ∃ gap text, s = gap ++ (text ++ r) ∧ Trivia gap ∧ Spells t text r ∧
      n = line + newlines (gap ++ text) := by
  obtain ⟨gap, r', rfl, tr, on⟩ := exists_onset s
  cases on with
  | token sp =>
    rw [sp.scan tr] at h
    cases h
    exact ⟨gap, _, rfl, tr, sp, rfl⟩
  | @tail _ e ta =>
    rw [ta.scan tr] at h
    cases e <;> cases h

lemma Spells.not_isEof {t text rest} (sp : Spells t text rest) : ¬t.isEof := by
  cases sp with
  | @keyword w kind _ _ mem _ =>
    have all : ∀ p ∈ TokenKind.reserved, p.2 ≠ .eof := by decide
    simpa [Token.isEof] using all _ mem
  | _ => simp [Token.isEof]

end EnumGen
