import EnumGen.Text.Quoted
import Mathlib.Tactic.Lemma

/-!
# Quoted text can be told apart

Every character is quoted in one of three ways: by a letter behind a backslash, by its code point,
or as itself (`quoteChar_cases`). None of them is the start of another one or of the last quote, so
a quoted text is told from whatever stands behind it (`flatMap_quoteChar_append_inj`), and control
characters are never written as themselves (`not_control_of_mem_quoteChars`).
-/

namespace EnumGen.Text

/-- The characters that a terminal acts upon instead of showing them, of which the newline is one.
-/
def Control (c : Char) : Prop :=
  c.toNat < 0x20 ∨ 0x7f ≤ c.toNat ∧ c.toNat ≤ 0x9f

instance : DecidablePred Control :=
  fun c => inferInstanceAs (Decidable (c.toNat < 0x20 ∨ 0x7f ≤ c.toNat ∧ c.toNat ≤ 0x9f))

/-- Two texts that go on behind the first occurrence of a character are the same up to it. -/
lemma append_cons_inj {α : Type} {a : α} {l l' r r' : List α} (no : a ∉ l) (no' : a ∉ l')
    (e : l ++ a :: r = l' ++ a :: r') : l = l' ∧ r = r' := by
  obtain ⟨m, rfl, rest⟩ | ⟨m, rfl, rest⟩ := List.append_eq_append_iff.mp e
  all_goals
    cases m with
    | nil =>
      cases rest
      exact ⟨by simp, rfl⟩
    | cons b m =>
      cases rest
      simp at no no'

/-! ## Hexadecimal digits -/

lemma hexDigits_eq (n : Nat) : hexDigits n =
    if n < 16 then [Nat.digitChar n] else hexDigits (n / 16) ++ [Nat.digitChar (n % 16)] :=
  Nat.toDigits_eq_if (by decide)

lemma exists_digitChar_of_mem_hexDigits {c : Char} {n : Nat} (mem : c ∈ hexDigits n) :
    ∃ k < 16, c = Nat.digitChar k := by
  induction n using Nat.strongRecOn with
  | _ n ih =>
    rw [hexDigits_eq] at mem
    split at mem
    · rename_i less
      exact ⟨n, less, List.mem_singleton.mp mem⟩
    · rw [List.mem_append, List.mem_singleton] at mem
      obtain mem | rfl := mem
      · exact ih (n / 16) (by omega) mem
      · exact ⟨n % 16, Nat.mod_lt n (by decide), rfl⟩

lemma digitChar_inj : ∀ k < 16, ∀ k' < 16, Nat.digitChar k = Nat.digitChar k' → k = k' := by
  decide

/-- Different numbers have different digits. -/
lemma hexDigits_inj {m n : Nat} (e : hexDigits m = hexDigits n) : m = n := by
  have pos (k : Nat) : hexDigits k ≠ [] := Nat.toDigits_ne_nil
  induction m using Nat.strongRecOn generalizing n with
  | _ m ih =>
    rw [hexDigits_eq m, hexDigits_eq n] at e
    split at e <;> split at e
    · exact digitChar_inj _ ‹_› _ ‹_› (List.singleton_inj.mp e)
    · simp [List.singleton_eq_append_iff, pos] at e
    · simp [List.append_eq_singleton_iff, pos] at e
    · obtain ⟨high, low⟩ := List.append_singleton_inj.mp e
      have high := ih (m / 16) (by omega) high
      have low := digitChar_inj _ (Nat.mod_lt m (by decide)) _ (Nat.mod_lt n (by decide)) low
      omega

lemma not_control_digitChar : ∀ k < 16, ¬Control (Nat.digitChar k) ∧ Nat.digitChar k ≠ '\x7d' := by
  decide

/-! ## One character -/

/-- The letters behind a backslash, each with the character that it stands for. -/
def letters : List (Char × Char) :=
  [('"', '"'), ('\\', '\\'), ('n', '\n'), ('r', '\r'), ('t', '\t'), ('0', '\x00')]

lemma letters_inj : ∀ p ∈ letters, ∀ q ∈ letters, p.1 = q.1 → p.2 = q.2 := by
  decide

lemma not_control_of_mem_letters : ∀ p ∈ letters, ¬Control p.1 ∧ p.1 ≠ 'u' := by
  decide

lemma unprintable_of_control : ∀ n < 0xa0, n < 0x20 ∨ 0x7f ≤ n → unprintable.holds n := by
  decide +kernel

/-- A character that is not hidden is not a control character. -/
lemma not_control_of_not_isHidden {c : Char} (shown : ¬isHidden c) : ¬Control c := by
  intro control
  apply shown
  have low : unprintable.holds c.toNat := by
    apply unprintable_of_control <;> (unfold Control at control; omega)
  rw [isHidden, low, Bool.true_or]

/-- A character is quoted by a letter or by its code point, or it stands for itself. -/
lemma quoteChar_cases (c : Char) :
    (∃ e, quoteChar c = ['\\', e] ∧ (e, c) ∈ letters) ∨
      quoteChar c = '\\' :: 'u' :: '\x7b' :: (hexDigits c.toNat ++ ['\x7d']) ∨
      (quoteChar c = [c] ∧ c ≠ '"' ∧ c ≠ '\\' ∧ ¬Control c) := by
  by_cases quote : c = '"'
  · subst quote
    exact .inl ⟨'"', rfl, by decide⟩
  by_cases backslash : c = '\\'
  · subst backslash
    exact .inl ⟨'\\', rfl, by decide⟩
  by_cases newline : c = '\n'
  · subst newline
    exact .inl ⟨'n', rfl, by decide⟩
  by_cases ret : c = '\r'
  · subst ret
    exact .inl ⟨'r', rfl, by decide⟩
  by_cases tab : c = '\t'
  · subst tab
    exact .inl ⟨'t', rfl, by decide⟩
  by_cases null : c.toNat = 0
  · obtain rfl : c = '\x00' := Char.toNat_inj.mp null
    exact .inl ⟨'0', rfl, by decide⟩
  rw [quoteChar, if_neg quote, if_neg backslash, if_neg newline, if_neg ret, if_neg tab,
    if_neg null]
  by_cases hidden : isHidden c
  · exact .inr (.inl (if_pos hidden))
  · exact .inr (.inr ⟨if_neg hidden, quote, backslash, not_control_of_not_isHidden hidden⟩)

/-- No character is quoted as the start of how another one is quoted. -/
lemma quoteChar_append_inj {c d : Char} {x y : List Char}
    (e : quoteChar c ++ x = quoteChar d ++ y) : c = d ∧ x = y := by
  have brace (n : Nat) : '\x7d' ∉ hexDigits n := by
    intro mem
    obtain ⟨k, less, is⟩ := exists_digitChar_of_mem_hexDigits mem
    exact (not_control_digitChar k less).2 is.symm
  obtain ⟨l, text, letter⟩ | text | ⟨text, quote, backslash, _⟩ := quoteChar_cases c <;>
    obtain ⟨l', text', letter'⟩ | text' | ⟨text', quote', backslash', _⟩ := quoteChar_cases d <;>
    rw [text, text'] at e <;>
    simp only [List.cons_append, List.nil_append, List.append_assoc, List.cons.injEq, true_and] at e
  · exact ⟨letters_inj _ letter _ letter' e.1, e.2⟩
  · exact absurd e.1 (not_control_of_mem_letters _ letter).2
  · exact absurd e.1.symm backslash'
  · exact absurd e.1.symm (not_control_of_mem_letters _ letter').2
  · obtain ⟨digits, rest⟩ := append_cons_inj (brace _) (brace _) e
    exact ⟨Char.toNat_inj.mp (hexDigits_inj digits), rest⟩
  · exact absurd e.1.symm backslash'
  · exact absurd e.1 backslash
  · exact absurd e.1 backslash
  · exact e

/-- The quote that ends a text is not the start of a quoted character. -/
lemma quoteChar_append_ne (c : Char) (x y : List Char) : quoteChar c ++ x ≠ '"' :: y := by
  intro e
  obtain ⟨l, text, _⟩ | text | ⟨text, quote, _, _⟩ := quoteChar_cases c <;> rw [text] at e
  · cases e
  · cases e
  · injection e with is _
    exact quote is

lemma not_control_of_mem_quoteChar {c d : Char} (mem : d ∈ quoteChar c) : ¬Control d := by
  obtain ⟨l, text, letter⟩ | text | ⟨text, _, _, shown⟩ := quoteChar_cases c <;> rw [text] at mem
  · rw [List.mem_cons, List.mem_singleton] at mem
    obtain rfl | rfl := mem
    · decide
    · exact (not_control_of_mem_letters _ letter).1
  · simp only [List.mem_cons, List.mem_append, List.not_mem_nil, or_false] at mem
    obtain rfl | rfl | rfl | digit | rfl := mem
    · decide
    · decide
    · decide
    · obtain ⟨k, less, rfl⟩ := exists_digitChar_of_mem_hexDigits digit
      exact (not_control_digitChar k less).1
    · decide
  · rw [List.mem_singleton] at mem
    rw [mem]
    exact shown

/-! ## Whole texts -/

/-- Before its closing quote a text can be read back, and what stands behind it as well. -/
lemma flatMap_quoteChar_append_inj {s t x y : List Char}
    (e : s.flatMap quoteChar ++ '"' :: x = t.flatMap quoteChar ++ '"' :: y) : s = t ∧ x = y := by
  induction s generalizing t with
  | nil =>
    cases t with
    | nil =>
      cases e
      exact ⟨rfl, rfl⟩
    | cons d t =>
      rw [List.flatMap_cons, List.append_assoc] at e
      exact absurd e.symm (quoteChar_append_ne d _ _)
  | cons c s ih =>
    cases t with
    | nil =>
      rw [List.flatMap_cons, List.append_assoc] at e
      exact absurd e (quoteChar_append_ne c _ _)
    | cons d t =>
      rw [List.flatMap_cons, List.flatMap_cons, List.append_assoc, List.append_assoc] at e
      obtain ⟨first, later⟩ := quoteChar_append_inj e
      obtain ⟨same, rest⟩ := ih later
      exact ⟨by rw [first, same], rest⟩

lemma not_control_of_mem_quoteChars {s : List Char} : ∀ d ∈ quoteChars s, ¬Control d := by
  have quote : ¬Control '"' := by decide
  intro d mem
  simp only [quoteChars, List.mem_cons, List.mem_append, List.mem_flatMap, List.not_mem_nil,
    or_false] at mem
  obtain rfl | ⟨c, _, mem⟩ | rfl := mem
  · exact quote
  · exact not_control_of_mem_quoteChar mem
  · exact quote

@[simp] lemma toList_quote (s : String) : (quote s).toList = quoteChars s.toList :=
  String.toList_ofList

end EnumGen.Text
