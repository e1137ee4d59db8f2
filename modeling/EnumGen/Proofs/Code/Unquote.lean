import EnumGen.Code.Literal
import Mathlib.Tactic.Lemma

/-!
# Reading string literals

The generated language reads an interpreted string literal character by character up to the quote
that ends it. A backslash starts an escape: one letter, or `u` and exactly four hexadecimal digits.
Nothing goes beyond the end of the line. `unquote?` gives the text of a literal that has nothing
behind it, and the main statement is that it undoes `literalChars` (`unquote?_literalChars`).

The escapes by which a literal spells single bytes are left out, since no text is written with them.
-/

namespace EnumGen.Code

/-- The characters that an escape of one letter stands for. -/
def named? (c : Char) : Option Char :=
  [('"', '"'), ('\\', '\\'), ('n', '\n'), ('r', '\r'), ('t', '\t'), ('a', '\x07'), ('b', '\x08'),
    ('v', '\x0b'), ('f', '\x0c')].lookup c

/-- The value of a hexadecimal digit, of either case. -/
def digit? (c : Char) : Option Nat :=
  if '0' ≤ c ∧ c ≤ '9' then some (c.toNat - '0'.toNat)
  else if 'a' ≤ c ∧ c ≤ 'f' then some (c.toNat - 'a'.toNat + 10)
  else if 'A' ≤ c ∧ c ≤ 'F' then some (c.toNat - 'A'.toNat + 10)
  else none

/-- The number that hexadecimal digits spell. -/
def hexValue? (digits : List Char) : Option Nat :=
  digits.foldlM (fun n c => (digit? c).map (16 * n + ·)) 0

/-- The character with the code point that hexadecimal digits spell. -/
def codePoint? (digits : List Char) : Option Char := do
  let n ← hexValue? digits
  if n.isValidChar then some (Char.ofNat n) else none

/-- One more character in front of a text that was read. -/
def push (c : Char) (read : List Char × List Char) : List Char × List Char :=
  (c :: read.1, read.2)

/-- What the reading of a literal is inside of. -/
inductive Quoted
  | text
  /-- behind a backslash -/
  | escape
  /-- behind `u` and some of its digits -/
  | digits (read : List Char)
  deriving DecidableEq, Repr

/-- Reads what stands behind the first quote of a literal, up to its last quote, and gives the text
and what follows. -/
def readQuoted : Quoted → List Char → Option (List Char × List Char)
  | _, [] => none
  | .text, c :: s =>
    if c = '"' then some ([], s)
    else if c = '\n' then none
    else if c = '\\' then readQuoted .escape s
    else (readQuoted .text s).map (push c)
  | .escape, c :: s =>
    if c = 'u' then readQuoted (.digits []) s
    else (named? c).bind fun c => (readQuoted .text s).map (push c)
  | .digits read, c :: s =>
    if read.length < 3 then readQuoted (.digits (read ++ [c])) s
    else (codePoint? (read ++ [c])).bind fun c => (readQuoted .text s).map (push c)

/-- The text of a literal. -/
def unquote? : List Char → Option (List Char)
  | '"' :: s =>
    match readQuoted .text s with
    | some (text, []) => some text
    | _ => none
  | _ => none

/-! ## Literals are read back -/

/-- The code points of control characters take four digits, which spell them. -/
lemma hexValue?_hex4 : ∀ n < 0xa0, (hex4 n).length = 4 ∧ hexValue? (hex4 n) = some n := by
  decide +kernel

lemma isControl_lt {c : Char} (control : isControl c) : c.toNat < 0xa0 := by
  simp only [isControl, Bool.or_eq_true, Bool.and_eq_true, decide_eq_true_eq] at control
  omega

/-- Four digits are read as the control character whose code point they spell. -/
lemma readQuoted_hex4 {c : Char} (control : isControl c) (s : List Char) :
    readQuoted (.digits []) (hex4 c.toNat ++ s) = (readQuoted .text s).map (push c) := by
  obtain ⟨four, value⟩ := hexValue?_hex4 _ (isControl_lt control)
  obtain ⟨d₁, d₂, d₃, d₄, digits⟩ : ∃ d₁ d₂ d₃ d₄, hex4 c.toNat = [d₁, d₂, d₃, d₄] := by
    match hex4 c.toNat, four with
    | [d₁, d₂, d₃, d₄], _ => exact ⟨d₁, d₂, d₃, d₄, rfl⟩
  have char : codePoint? [d₁, d₂, d₃, d₄] = some c := by
    rw [← digits, codePoint?, value]
    exact (if_pos c.valid).trans (congrArg some (Char.ofNat_toNat c))
  rw [digits]
  show (codePoint? [d₁, d₂, d₃, d₄]).bind _ = _
  rw [char]
  rfl

/-- A character is escaped by a letter or by its code point, or it stands for itself. -/
lemma literalChar_cases (c : Char) :
    (∃ e, literalChar c = ['\\', e] ∧ named? e = some c ∧ e ≠ 'u' ∧ e ≠ '\n') ∨
      (literalChar c = '\\' :: 'u' :: hex4 c.toNat ∧ isControl c) ∨
      (literalChar c = [c] ∧ c ≠ '"' ∧ c ≠ '\n' ∧ c ≠ '\\') := by
  by_cases quote : c = '"'
  · subst quote
    exact .inl ⟨'"', rfl, rfl, by decide⟩
  by_cases backslash : c = '\\'
  · subst backslash
    exact .inl ⟨'\\', rfl, rfl, by decide⟩
  by_cases newline : c = '\n'
  · subst newline
    exact .inl ⟨'n', rfl, rfl, by decide⟩
  by_cases ret : c = '\r'
  · subst ret
    exact .inl ⟨'r', rfl, rfl, by decide⟩
  by_cases tab : c = '\t'
  · subst tab
    exact .inl ⟨'t', rfl, rfl, by decide⟩
  rw [literalChar, if_neg quote, if_neg backslash, if_neg newline, if_neg ret, if_neg tab]
  by_cases control : isControl c
  · exact .inr (.inl ⟨if_pos control, control⟩)
  · exact .inr (.inr ⟨if_neg control, quote, newline, backslash⟩)

lemma readQuoted_literalChar (c : Char) (s : List Char) :
    readQuoted .text (literalChar c ++ s) = (readQuoted .text s).map (push c) := by
  obtain ⟨e, text, name, digits, _⟩ | ⟨text, control⟩ | ⟨text, quote, newline, backslash⟩ :=
    literalChar_cases c
  · rw [text]
    show readQuoted .escape (e :: s) = _
    rw [readQuoted, if_neg digits, name, Option.bind_some]
  · rw [text]
    exact readQuoted_hex4 control s
  · rw [text, List.singleton_append, readQuoted, if_neg quote, if_neg newline, if_neg backslash]

lemma readQuoted_flatMap (text rest : List Char) :
    readQuoted .text (text.flatMap literalChar ++ '"' :: rest) = some (text, rest) := by
  induction text with
  | nil => rfl
  | cons c text ih =>
    rw [List.flatMap_cons, List.append_assoc, readQuoted_literalChar, ih]
    rfl

/-- A literal is read as the text that it was made of. -/
lemma unquote?_literalChars (text : List Char) : unquote? (literalChars text) = some text := by
  have read := readQuoted_flatMap text []
  simp [unquote?, literalChars, read]

/-! ## Literals stay on one line -/

lemma newline_not_mem_hex4 : ∀ n < 0xa0, '\n' ∉ hex4 n := by
  decide +kernel

lemma newline_not_mem_literalChar (c : Char) : '\n' ∉ literalChar c := by
  obtain ⟨e, text, _, _, newline⟩ | ⟨text, control⟩ | ⟨text, _, newline, _⟩ := literalChar_cases c
  · simpa [text] using Ne.symm newline
  · have digits := newline_not_mem_hex4 _ (isControl_lt control)
    simpa [text] using digits
  · simpa [text] using Ne.symm newline

lemma newline_not_mem_literalChars (text : List Char) : '\n' ∉ literalChars text := by
  simp [literalChars, newline_not_mem_literalChar]

@[simp] lemma toList_literal (s : String) : (literal s).toList = literalChars s.toList :=
  String.toList_ofList

/-- A character that stands for itself. -/
def Plain (c : Char) : Prop :=
  literalChar c = [c]

instance : DecidablePred Plain :=
  fun c => inferInstanceAs (Decidable (literalChar c = [c]))

lemma literalChars_of_plain {text : List Char} (plain : ∀ c ∈ text, Plain c) :
    literalChars text = '"' :: text ++ ['"'] := by
  have same : text.flatMap literalChar = text := by
    induction text with
    | nil => rfl
    | cons c text ih =>
      rw [List.forall_mem_cons] at plain
      have self : literalChar c = [c] := plain.1
      rw [List.flatMap_cons, self, ih plain.2]
      rfl
  rw [literalChars, same]
  rfl

end EnumGen.Code
