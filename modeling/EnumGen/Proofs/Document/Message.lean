import EnumGen.Proofs.Document.Continuation
import EnumGen.Proofs.Text.Quoted

/-!
# What a diagnostic tells

A diagnostic is one line of text, whatever the file holds, since all that is taken from the file is
quoted. And it tells which item is at fault. No description of what is expected holds a comma, so
the first one stands before the item (`Item.describe`); no kind of token is called by a name with a
double quote in it, so the first one stands before the lexeme, and quoted lexemes can be told apart
(`message_unambiguous`).
-/

namespace EnumGen

open Grammar Text

/-! ## The parts of a diagnostic -/

/-- Every kind of token. -/
def TokenKind.all : List TokenKind :=
  [eof, ident, eq, lbrace, rbrace, tag, package, type, enum, other] ++ ints

lemma TokenKind.mem_all (k : TokenKind) : k ∈ all := by
  cases k with
  | int t => exact List.mem_append_right _ (List.mem_map_of_mem t.mem_all)
  | _ => decide

/-- Every kind has a name of its own. -/
lemma TokenKind.describe_inj {k k' : TokenKind} (e : k.describe = k'.describe) : k = k' := by
  have table : ∀ k ∈ all, ∀ k' ∈ all, k.describe = k'.describe → k = k' := by decide +kernel
  exact table k k.mem_all k' k'.mem_all e

lemma TokenKind.of_mem_describe (k : TokenKind) :
    ∀ c ∈ k.describe.toList, ¬Control c ∧ c ≠ '"' := by
  cases k with
  | int t => cases t <;> simp [describe, IntType.name, Control]
  | _ => simp [describe, Control]

lemma Grammar.Position.of_mem_expected (p : Position) (i : Item) :
    ∀ c ∈ (p.expected i).toList, ¬Control c ∧ c ≠ ',' := by
  cases p with
  | inside | named =>
    simp only [expected]
    split <;> simp [Control]
  | _ => simp [expected, Control]

namespace Grammar.Item

lemma toList_describe_token (t : Token) : (token t).describe.toList =
    t.kind.describe.toList ++ ' ' :: quoteChars t.lexeme.toList := by
  simp [describe]

/-- A token is told from the name of its kind and its quoted lexeme. -/
lemma describe_token_inj {t t' : Token} (e : (token t).describe = (token t').describe) :
    t = t' := by
  have chars := congrArg String.toList e
  have parts (t : Token) : (token t).describe.toList =
      (t.kind.describe.toList ++ [' ']) ++ '"' :: (t.lexeme.toList.flatMap quoteChar ++ ['"']) := by
    rw [toList_describe_token, List.append_assoc]
    rfl
  have no (t : Token) : '"' ∉ t.kind.describe.toList ++ [' '] := by
    rw [List.mem_append, not_or]
    exact ⟨fun mem => (t.kind.of_mem_describe _ mem).2 rfl, by decide⟩
  rw [parts, parts] at chars
  obtain ⟨kinds, lexemes⟩ := append_cons_inj (no t) (no t') chars
  have kind : t.kind = t'.kind :=
    TokenKind.describe_inj (String.toList_inj.mp (List.append_cancel_right kinds))
  have lexeme : t.lexeme = t'.lexeme :=
    String.toList_inj.mp (flatMap_quoteChar_append_inj lexemes).1
  cases t
  cases t'
  exact (Token.mk.injEq ..).mpr ⟨kind, lexeme⟩

/-- An item that is not a failure is told from what a diagnostic calls it. -/
lemma describe_inj {i i' : Item} (real : i ≠ failure) (real' : i' ≠ failure)
    (e : i.describe = i'.describe) : i = i' := by
  have eof (t : Token) : (token t).describe ≠ Item.eof.describe := by
    intro e
    have quote : '"' ∈ (token t).describe.toList := by simp [toList_describe_token, quoteChars]
    rw [e] at quote
    simp [describe] at quote
  cases i with
  | token t =>
    cases i' with
    | token t' => rw [describe_token_inj e]
    | eof => exact absurd e (eof t)
    | failure => exact absurd rfl real'
  | eof =>
    cases i' with
    | token t' => exact absurd e.symm (eof t')
    | eof => rfl
    | failure => exact absurd rfl real'
  | failure => exact absurd rfl real

lemma not_control_of_mem_describe (i : Item) : ∀ c ∈ i.describe.toList, ¬Control c := by
  cases i with
  | token t =>
    intro c mem
    rw [toList_describe_token, List.mem_append, List.mem_cons] at mem
    obtain mem | rfl | mem := mem
    · exact (t.kind.of_mem_describe c mem).1
    · decide
    · exact not_control_of_mem_quoteChars c mem
  | eof | failure => simp [describe, Control]

end Grammar.Item

/-! ## Whole diagnostics -/

lemma not_control_of_mem_toString (n : Nat) : ∀ c ∈ (toString n).toList, ¬Control c := by
  intro c mem
  rw [Nat.toString_eq_ofList_toDigits, String.toList_ofList] at mem
  have digit := Nat.isDigit_of_mem_toDigits (by decide) (by decide) mem
  rw [Char.isDigit_iff_toNat] at digit
  have low : '0'.toNat = 48 := rfl
  have high : '9'.toNat = 57 := rfl
  unfold Control
  omega

/-- A text without control characters in any of its parts has none. -/
lemma not_control_append {s t : String} (hs : ∀ c ∈ s.toList, ¬Control c)
    (ht : ∀ c ∈ t.toList, ¬Control c) : ∀ c ∈ (s ++ t).toList, ¬Control c := by
  rw [String.toList_append]
  exact List.forall_mem_append.mpr ⟨hs, ht⟩

/-- A report is one line of text. -/
lemma not_control_of_mem_report (p : Position) (line : Nat) (i : Item) :
    ∀ c ∈ (report p line i).message.toList, ¬Control c := by
  have number := not_control_of_mem_toString line
  have misplaced : ∀ c ∈ (toString line ++ ": " ++
      ("expected " ++ p.expected i ++ ", got " ++ i.describe)).toList, ¬Control c := by
    have expected : ∀ c ∈ (p.expected i).toList, ¬Control c := fun c mem =>
      (p.of_mem_expected i c mem).1
    refine not_control_append (not_control_append number (by simp [Control])) ?_
    refine not_control_append ?_ i.not_control_of_mem_describe
    exact not_control_append (not_control_append (by simp [Control]) expected) (by simp [Control])
  cases i with
  | failure => exact not_control_append number (by simp [Control])
  | token t => exact misplaced
  | eof => exact misplaced

/-- Reports with the same words are about the same item. -/
lemma item_eq_of_report {p p' : Position} {n n' : Nat} {i i' : Item} {m : String} {k k' : Nat}
    (r : report p n i = .misplaced k m) (r' : report p' n' i' = .misplaced k' m) : i = i' := by
  have words {p : Position} {n k : Nat} {i : Item} (r : report p n i = .misplaced k m) :
      i ≠ .failure ∧ m = "expected " ++ p.expected i ++ ", got " ++ i.describe := by
    cases i with
    | failure => cases r
    | token t =>
      cases r
      exact ⟨nofun, rfl⟩
    | eof =>
      cases r
      exact ⟨nofun, rfl⟩
  obtain ⟨real, is⟩ := words r
  obtain ⟨real', is'⟩ := words r'
  have parts (p : Position) (i : Item) :
      ("expected " ++ p.expected i ++ ", got " ++ i.describe).toList =
        "expected ".toList ++
          ((p.expected i).toList ++ ',' :: (" got ".toList ++ i.describe.toList)) := by
    simp
  have no (p : Position) (i : Item) : ',' ∉ (p.expected i).toList :=
    fun mem => (p.of_mem_expected i _ mem).2 rfl
  have same := congrArg String.toList (is.symm.trans is')
  rw [parts, parts] at same
  obtain ⟨_, rest⟩ := append_cons_inj (no p i) (no p' i') (List.append_cancel_left same)
  exact Item.describe_inj real real' (String.toList_inj.mp (List.append_cancel_left rest))

/-- A text that is no document fails with the report on the item at fault. -/
lemma exists_offends {source : String} {e : ParseError} (fails : Document.parse source = .error e) :
    ∃ item upTo p, Offends source.toList item upTo ∧ e = report p (1 + newlines upTo) item := by
  obtain ⟨ps, last, ending, d⟩ := exists_divides source.toList
  have s := Cursor.sees_ofSource source
  rw [Lexed.ofSource, d.ofChars] at s
  rw [Document.parse, s.parseDocument_eq_error_iff] at fails
  obtain ⟨i, item, p, least, here, _, is⟩ := fails.exists_isLeast d
  exact ⟨item, _, p, ⟨ps, last, ending, i, d, least, here, rfl⟩, is⟩

/-- A failure is reported on one line and without control characters. If two texts have a misplaced
item and the same words report it, then the one item at fault is the same in both: their end, or the
same token. -/
theorem message_unambiguous {source : String} {e : ParseError}
    (fails : Document.parse source = .error e) :
    (∀ c ∈ e.message.toList, ¬Control c) ∧
      ∀ n m, e = .misplaced n m →
        ∀ source' n', Document.parse source' = .error (.misplaced n' m) →
          ∃ item, (item = .eof ∨ ∃ t, item = .token t) ∧
            (∀ i, (∃ upTo, Offends source.toList i upTo) ↔ i = item) ∧
            ∀ i, (∃ upTo, Offends source'.toList i upTo) ↔ i = item := by
  obtain ⟨item, upTo, p, at', is⟩ := exists_offends fails
  constructor
  · rw [is]
    exact not_control_of_mem_report p _ item
  · rintro n m rfl source' n' fails'
    obtain ⟨item', upTo', p', at'', is'⟩ := exists_offends fails'
    obtain rfl := item_eq_of_report is.symm is'.symm
    have only {source : String} {upTo} (o : Offends source.toList item upTo) (i : Item) :
        (∃ upTo, Offends source.toList i upTo) ↔ i = item := by
      constructor
      · rintro ⟨_, o'⟩
        exact (o.unique o').1
      · rintro rfl
        exact ⟨_, o⟩
    refine ⟨item, ?_, only at', only at''⟩
    cases item with
    | token t => exact .inr ⟨t, rfl⟩
    | eof => exact .inl rfl
    | failure => cases is

/-- A tag with a newline and a quote in it is reported on one line, and in the same words where
another name is missing. -/
theorem message_unambiguous_tag :
    Document.parse "package `a\n\"`" =
        .error (.misplaced 2 "expected identifier, got tag \"a\\n\\\"\"") ∧
      Document.parse "package p type `a\n\"`" =
        .error (.misplaced 2 "expected identifier, got tag \"a\\n\\\"\"") ∧
      ∃ item, (item = .eof ∨ ∃ t, item = .token t) ∧
        (∀ i, (∃ upTo, Offends "package `a\n\"`".toList i upTo) ↔ i = item) ∧
        ∀ i, (∃ upTo, Offends "package p type `a\n\"`".toList i upTo) ↔ i = item := by
  have fails : Document.parse "package `a\n\"`" =
      .error (.misplaced 2 "expected identifier, got tag \"a\\n\\\"\"") := by cbv
  have fails' : Document.parse "package p type `a\n\"`" =
      .error (.misplaced 2 "expected identifier, got tag \"a\\n\\\"\"") := by cbv
  exact ⟨fails, fails', (message_unambiguous fails).2 _ _ rfl _ _ fails'⟩

end EnumGen
