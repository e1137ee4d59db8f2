import EnumGen.Proofs.Document.Automaton
import EnumGen.Proofs.Token.Transparent

/-!
# Definitions behind a document

Between two definitions a document is always at the same place, whatever it has declared so far. So
definitions behind a newline are read behind a document as they are behind a bare header: either
they are added to what it declares, or they fail with the same error, further down by the lines that
the document takes (`parse_append_newline`).

What carries the failures over is that an error depends on the place that the tokens before it lead
to, and not on the tokens (`Fails.relocate`).
-/

namespace EnumGen

open Grammar

/-- The same error, met further down. -/
def ParseError.shift (k : Nat) : ParseError → ParseError
  | unexpectedEnd n => unexpectedEnd (n + k)
  | misplaced n text => misplaced (n + k) text

/-! ## What is ahead, further down -/

namespace Lexed

lemma item_shift (k : Nat) (l : Lexed) : (l.shift k).item = l.item := by
  obtain ⟨ts, failure, line⟩ := l
  cases ts with
  | nil => cases failure <;> rfl
  | cons t ts => rfl

lemma misfit_shift (k : Nat) (l : Lexed) (what : String) :
    (l.shift k).misfit what = (l.misfit what).shift k := by
  obtain ⟨ts, failure, line⟩ := l
  cases ts with
  | nil =>
    cases failure with
    | none => rfl
    | some e => cases e; rfl
  | cons t ts => rfl

lemma cons_shift (k : Nat) (t : Token) (n : Nat) (l : Lexed) :
    (l.cons t n).shift k = (l.shift k).cons t (n + k) :=
  rfl

lemma map_fst_shift (k : Nat) (l : Lexed) :
    (l.shift k).tokens.map Prod.fst = l.tokens.map Prod.fst := by
  simp [shift, Function.comp_def]

lemma shift_zero (l : Lexed) : l.shift 0 = l := by
  obtain ⟨ts, failure, line⟩ := l
  cases failure with
  | none => simp [shift]
  | some e => cases e; simp [shift, LexError.shift]

lemma begins_append (l m : Lexed) : (l.append m).Begins (l.tokens.map Prod.fst) m := by
  obtain ⟨ts, failure, line⟩ := l
  induction ts with
  | nil => exact .nil
  | cons t ts ih => exact .cons ih

end Lexed

/-- Tokens that lead to the same place are followed by the same failure. -/
lemma Fails.relocate {u u' l e p k} (f : Fails u l e) (r : Reaches u p) (r' : Reaches u' p) :
    Fails u' (l.shift k) (e.shift k) := by
  induction f generalizing u' p with
  | @here u l q at' no =>
    obtain rfl := at'.unique r
    rw [← Lexed.misfit_shift, ← Lexed.item_shift k l]
    rw [← Lexed.item_shift k l] at no
    exact .here r' no
  | @later u t n l e f ih =>
    obtain ⟨q, may⟩ := Option.ne_none_iff_exists'.mp (f.not_refuses r)
    rw [Lexed.cons_shift]
    exact .later (ih (r.next may) (r'.next may))

/-! ## Texts with a newline or a header before them -/

lemma EndsInLineComment.slash_mem {s : List Char} (h : EndsInLineComment s) : '/' ∈ s := by
  obtain ⟨ps, gap, text, d, _, _⟩ := h
  rw [d.eq_joined]
  simp

/-- Behind a newline, a text is read as it is alone. -/
lemma ofSource_append_newline {u : String} (w : String)
    (closed : (Lexed.ofSource u).failure = none) : Lexed.ofSource (u ++ "\n" ++ w) =
      (Lexed.ofSource u).append ((Lexed.ofSource w).shift (newlines u.toList + 1)) := by
  have sep : Separates ['\n'] u.toList := ⟨.blank rfl .nil, List.cons_ne_nil _ _, fun _ => rfl⟩
  have e := Lexed.ofChars_append (v := w.toList) closed sep
  have one : newlines ['\n'] = 1 := rfl
  rw [newlines_append, one] at e
  simpa [Lexed.ofSource] using e

/-- Behind a bare header, a text is read as it is alone. -/
lemma ofSource_header (w : String) : Lexed.ofSource ("package p " ++ w) =
    ((Lexed.ofSource w).cons ⟨.ident, "p"⟩ 1).cons ⟨.package, "package"⟩ 1 := by
  have header : Lexed.ofChars 1 "package p".toList =
      ⟨[(⟨.package, "package"⟩, 1), (⟨.ident, "p"⟩, 1)], none, 1⟩ := by cbv
  have bare : ¬EndsInLineComment "package p".toList := fun h => absurd h.slash_mem (by decide)
  have sep : Separates " ".toList "package p".toList :=
    ⟨.blank rfl .nil, by decide, fun h => absurd h bare⟩
  have closed : (Lexed.ofChars 1 "package p".toList).failure = none := by rw [header]
  have e := Lexed.ofChars_append (v := w.toList) closed sep
  have lines : newlines ("package p".toList ++ " ".toList) = 0 := by decide
  rw [lines, Lexed.shift_zero, header] at e
  rw [Lexed.ofSource, String.toList_append]
  exact e

/-! ## Two parts of a document -/

lemma Grammar.DocumentNode.Derives.append {d d' : DocumentNode} {u v x n} (dd : d.Derives u)
    (dd' : d'.Derives (⟨.package, x⟩ :: ⟨.ident, n⟩ :: v)) :
    DocumentNode.Derives ⟨d.package, d.enums ++ d'.enums⟩ (u ++ v) := by
  cases dd with
  | mk se =>
    cases dd' with
    | mk se' => exact .mk (se.append se')

/-- Behind a document and a newline, definitions are read as they are behind a bare header. They
are added to those of the document, or they fail with the same error, which is further down by the
lines of the document. -/
theorem parse_append_newline (u w : String) {d : Document} (parsed : Document.parse u = .ok d) :
    Document.parse (u ++ "\n" ++ w) =
      match Document.parse ("package p " ++ w) with
      | .ok d' => .ok ⟨d.package, d.enums ++ d'.enums⟩
      | .error e => .error (e.shift (newlines u.toList + 1)) := by
  rw [Document.parse, (Cursor.sees_ofSource u).parseDocument_eq_ok_iff] at parsed
  obtain ⟨closed, n, dd, rfl⟩ := parsed
  have whole := Cursor.sees_ofSource (u ++ "\n" ++ w)
  rw [ofSource_append_newline w closed] at whole
  have part := Cursor.sees_ofSource ("package p " ++ w)
  rw [ofSource_header] at part
  cases read : Document.parse ("package p " ++ w) with
  | ok d' =>
    rw [Document.parse, part.parseDocument_eq_ok_iff] at read
    obtain ⟨closed', n', dd', rfl⟩ := read
    have open' : (Lexed.ofSource w).failure = none := closed'
    have both := dd.append (v := (Lexed.ofSource w).tokens.map Prod.fst) dd'
    rw [Document.parse, whole.parseDocument_eq_ok_iff]
    refine ⟨?_, ⟨n.package, n.enums ++ n'.enums⟩, ?_, ?_⟩
    · simp [Lexed.append, Lexed.shift, open']
    · rwa [Lexed.append, List.map_append, Lexed.map_fst_shift]
    · simp [DocumentNode.document]
  | error e =>
    rw [Document.parse, part.parseDocument_eq_error_iff] at read
    rw [Document.parse, whole.parseDocument_eq_error_iff]
    -- Reading passes the header of the part and comes to the place where the document ends.
    have package : ¬Position.start.Refuses (.token ⟨.package, "package"⟩) := by
      intro no
      cases no
    have name : ¬Position.packageName.Refuses (.token ⟨.ident, "p"⟩) := by
      intro no
      cases no
    have behind := (read.of_cons .start package).of_cons .packageName name
    apply (Lexed.begins_append _ _).fails
    rw [List.nil_append]
    exact behind.relocate (.outside (.mk .nil)) (.outside dd)

/-- Behind a document that ends in an open line comment, one definition is added and another one is
cut off by the end of the text. -/
theorem parse_append_newline_comment :
    Document.parse "package q type T enum \x7b A \x7d // `" = .ok ⟨"q", [⟨"T", .int, [⟨"A", "A"⟩]⟩]⟩ ∧
      Document.parse ("package q type T enum \x7b A \x7d // `" ++ "\n" ++ "type S enum byte \x7b\x7d") =
        .ok ⟨"q", [⟨"T", .int, [⟨"A", "A"⟩]⟩, ⟨"S", .byte, []⟩]⟩ ∧
      Document.parse ("package q type T enum \x7b A \x7d // `" ++ "\n" ++ "type S\nenum /*") =
        .error (.unexpectedEnd 3) := by
  have parsed : Document.parse "package q type T enum \x7b A \x7d // `" =
      .ok ⟨"q", [⟨"T", .int, [⟨"A", "A"⟩]⟩]⟩ := by cbv
  have added : Document.parse ("package p " ++ "type S enum byte \x7b\x7d") =
      .ok ⟨"p", [⟨"S", .byte, []⟩]⟩ := by cbv
  have cut : Document.parse ("package p " ++ "type S\nenum /*") = .error (.unexpectedEnd 2) := by cbv
  refine ⟨parsed, ?_, ?_⟩
  · rw [parse_append_newline _ _ parsed, added]
    rfl
  · rw [parse_append_newline _ _ parsed, cut]
    rfl

end EnumGen
