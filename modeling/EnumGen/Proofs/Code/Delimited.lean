import EnumGen.Proofs.Code.Unquote
import EnumGen.Proofs.Text.Quoted
import Mathlib.Algebra.Ring.Parity
import Mathlib.Data.List.TakeWhile

/-!
# Literals tell where they end

Behind its first quote, a literal goes on to the first quote that is not escaped, which is one with
an even number of backslashes before it. `Enclosed` says of a text that it can stand between two
quotes: all quotes in it are escaped, the one behind it is not, and it holds no control character.

A literal is such a text between two quotes, it is read as the text that it was made of, and what
stands behind it can be told from it (`literal_selfDelimiting`).
-/

namespace EnumGen.Code

/-- The number of backslashes that a text ends in. -/
def backslashesAtEnd (s : List Char) : Nat :=
  (s.reverse.takeWhile (· = '\\')).length

/-- A text on one line that goes on from a quote before it to the quote behind it, and is ended by
no other one. -/
structure Enclosed (s : List Char) : Prop where
  visible : ∀ c ∈ s, ¬Text.Control c
  escaped : ∀ p q, s = p ++ '"' :: q → Odd (backslashesAtEnd p)
  closed : Even (backslashesAtEnd s)

/-! ## Texts that can stand between quotes -/

lemma backslashesAtEnd_snoc {c : Char} (other : c ≠ '\\') (s : List Char) :
    backslashesAtEnd (s ++ [c]) = 0 := by
  simp [backslashesAtEnd, other]

/-- An even number of backslashes does not change whether a quote behind further ones is escaped. -/
lemma even_backslashesAtEnd_append {s : List Char} (even : Even (backslashesAtEnd s))
    (t : List Char) : Even (backslashesAtEnd (s ++ t)) ↔ Even (backslashesAtEnd t) := by
  rw [backslashesAtEnd, List.reverse_append, List.takeWhile_append]
  split
  · rename_i all
    have before : Even (s.reverse.takeWhile (· = '\\')).length := even
    rw [List.length_append, Nat.even_add, ← all, iff_true_right before]
    rfl
  · rfl

lemma enclosed_nil : Enclosed [] := by
  refine ⟨List.forall_mem_nil _, fun p q e => ?_, Even.zero⟩
  simp at e

lemma Enclosed.append {s t : List Char} (es : Enclosed s) (et : Enclosed t) :
    Enclosed (s ++ t) := by
  refine ⟨List.forall_mem_append.mpr ⟨es.visible, et.visible⟩, ?_, ?_⟩
  · intro p q e
    obtain ⟨r, rfl, rest⟩ | ⟨r, rfl, rest⟩ := List.append_eq_append_iff.mp e
    · rw [← Nat.not_even_iff_odd, even_backslashesAtEnd_append es.closed, Nat.not_even_iff_odd]
      exact et.escaped r q rest
    · cases r with
      | nil => exact absurd (et.escaped [] q rest.symm) (by decide)
      | cons c r =>
        cases rest
        exact es.escaped p r rfl
  · exact (even_backslashesAtEnd_append es.closed t).mpr et.closed

/-- A text without quotes and backslashes encloses itself. -/
lemma enclosed_of_plain {s : List Char}
    (plain : ∀ c ∈ s, ¬Text.Control c ∧ c ≠ '"' ∧ c ≠ '\\') : Enclosed s := by
  refine ⟨fun c mem => (plain c mem).1, ?_, ?_⟩
  · rintro p q rfl
    exact absurd rfl (plain '"' (by simp)).2.1
  · have none : s.reverse.takeWhile (· = '\\') = [] := by
      rw [List.takeWhile_eq_nil_iff]
      intro pos slash
      exact (plain _ (List.mem_reverse.mp (List.getElem_mem pos))).2.2 (of_decide_eq_true slash)
    rw [backslashesAtEnd, none]
    exact Even.zero

/-- A backslash escapes the character behind it, whichever that is. -/
lemma enclosed_escape {e : Char} (visible : ¬Text.Control e) : Enclosed ['\\', e] := by
  refine ⟨?_, ?_, ?_⟩
  · rw [List.forall_mem_cons, List.forall_mem_singleton]
    exact ⟨by decide, visible⟩
  · intro p q is
    match p, is with
    | [_], is =>
      cases is
      decide
    | _ :: _ :: _, is => simp at is
  · by_cases slash : e = '\\'
    · subst slash
      decide
    · have none : backslashesAtEnd ['\\', e] = 0 := backslashesAtEnd_snoc slash ['\\']
      rw [none]
      exact Even.zero

/-! ## Literals -/

lemma plain_digitChar : ∀ k < 16,
    ¬Text.Control (Nat.digitChar k) ∧ Nat.digitChar k ≠ '"' ∧ Nat.digitChar k ≠ '\\' := by
  decide

lemma plain_hex4 (n : Nat) : ∀ d ∈ hex4 n, ¬Text.Control d ∧ d ≠ '"' ∧ d ≠ '\\' := by
  intro d mem
  rw [hex4, List.mem_append, List.mem_replicate] at mem
  obtain ⟨_, rfl⟩ | digit := mem
  · exact plain_digitChar 0 (by decide)
  · obtain ⟨k, less, rfl⟩ := Text.exists_digitChar_of_mem_hexDigits digit
    exact plain_digitChar k less

/-- Whatever a character is, it is written so that it can stand between quotes. -/
lemma enclosed_literalChar (c : Char) : Enclosed (literalChar c) := by
  by_cases quote : c = '"'
  · subst quote
    exact enclosed_escape (by decide)
  by_cases backslash : c = '\\'
  · subst backslash
    exact enclosed_escape (by decide)
  by_cases newline : c = '\n'
  · subst newline
    exact enclosed_escape (e := 'n') (by decide)
  by_cases ret : c = '\r'
  · subst ret
    exact enclosed_escape (e := 'r') (by decide)
  by_cases tab : c = '\t'
  · subst tab
    exact enclosed_escape (e := 't') (by decide)
  rw [literalChar, if_neg quote, if_neg backslash, if_neg newline, if_neg ret, if_neg tab]
  by_cases control : isControl c
  · rw [if_pos control]
    have escape : Enclosed ['\\', 'u'] := enclosed_escape (by decide)
    exact escape.append (enclosed_of_plain (plain_hex4 _))
  · rw [if_neg control]
    apply enclosed_of_plain
    rw [List.forall_mem_singleton]
    refine ⟨fun visible => control ?_, quote, backslash⟩
    unfold Text.Control at visible
    simp only [isControl, Bool.or_eq_true, Bool.and_eq_true, decide_eq_true_eq]
    omega

lemma enclosed_flatMap (text : List Char) : Enclosed (text.flatMap literalChar) := by
  induction text with
  | nil => exact enclosed_nil
  | cons c text ih =>
    rw [List.flatMap_cons]
    exact (enclosed_literalChar c).append ih

/-- What stands behind a literal is told from it, since reading stops at its last quote. -/
lemma literalChars_append_inj {s t x y : List Char}
    (e : literalChars s ++ x = literalChars t ++ y) : s = t ∧ x = y := by
  simp only [literalChars, List.cons_append, List.append_assoc, List.nil_append, List.cons.injEq,
    true_and] at e
  have left := readQuoted_flatMap s x
  rw [e, readQuoted_flatMap t y] at left
  injection left with both
  injection both with text rest
  exact ⟨text.symm, rest.symm⟩

/-- A literal stands between two quotes, of which no other one in it is mistaken for the second, and
it holds no control character. It is read as the text that it was made of. Two texts that start with
literals are the same just if the literals are of the same text and the same stands behind them. -/
theorem literal_selfDelimiting (s : String) :
    (∃ inner, (literal s).toList = '"' :: inner ++ ['"'] ∧ Enclosed inner) ∧
      unquote? (literal s).toList = some s.toList ∧
      ∀ t x y : String, literal s ++ x = literal t ++ y ↔ s = t ∧ x = y := by
  refine ⟨⟨_, toList_literal s, enclosed_flatMap s.toList⟩, ?_, ?_⟩
  · rw [toList_literal, unquote?_literalChars]
  · intro t x y
    constructor
    · intro e
      have chars := congrArg String.toList e
      rw [String.toList_append, String.toList_append, toList_literal, toList_literal] at chars
      obtain ⟨text, rest⟩ := literalChars_append_inj chars
      exact ⟨String.toList_inj.mp text, String.toList_inj.mp rest⟩
    · rintro ⟨rfl, rfl⟩
      rfl

-- The digit behind the four digits of an escape does not belong to it.
example : (literal "\x010\\\"").toList = "\"\\u00010\\\\\\\"\"".toList := by decide

end EnumGen.Code
