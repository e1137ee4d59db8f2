import EnumGen.Proofs.Document.Reading
import EnumGen.Proofs.Document.Steps
import Mathlib

/-!
# Which texts are documents

A text is read as a document just if its tokens are one and nothing at its end is cut short. The
document is then the one that the only derivation of the tokens declares. The same holds of a
cursor that stands anywhere in a text, for the tokens from there on (`parse_eq_ok_iff`).
-/

namespace EnumGen

open Grammar

namespace Lexed

/-- The tokens have a derivation, which declares the document, and nothing is cut short. -/
def Declares (l : Lexed) (doc : Document) : Prop :=
  l.failure = none ∧ ∃ d, DocumentNode.Derives d (l.tokens.map Prod.fst) ∧ d.document = doc

/-- The tokens and what stands behind the last one. -/
def items (l : Lexed) : List Item :=
  l.tokens.map (fun p => .token p.1) ++ [match l.failure with | none => .eof | some _ => .failure]

lemma items_eq_cons (l : Lexed) : ∃ is, l.items = l.item :: is := by
  obtain ⟨ts, failure, line⟩ := l
  cases ts with
  | nil => cases failure <;> exact ⟨[], rfl⟩
  | cons p ts => exact ⟨_, rfl⟩

end Lexed

/-- What is ahead of a failure is not the rest of a document. -/
lemma Fails.not_viable {u l e} (f : Fails u l e) : ¬Viable (u.map .token ++ l.items) := by
  induction f with
  | @here u l p at' no =>
    obtain ⟨is, e⟩ := l.items_eq_cons
    intro v
    rw [e, ← List.singleton_append, ← List.append_assoc] at v
    exact at'.not_viable no v.of_append
  | later _ ih =>
    rw [List.map_append, List.append_assoc] at ih
    exact ih

/-- The tokens of a document are a viable text. -/
lemma Grammar.DocumentNode.Derives.viable {d : DocumentNode} {l : Lexed}
    (dd : d.Derives (l.tokens.map Prod.fst)) (closed : l.failure = none) : Viable l.items := by
  refine ⟨d, _, dd, ?_⟩
  rw [Lexed.items, closed, List.map_map]
  exact List.prefix_rfl

/-- A cursor reads the document that what is ahead declares, and no other. -/
lemma Cursor.Sees.parseDocument_eq_ok_iff {c : Cursor} {l : Lexed} (s : c.Sees l)
    (doc : Document) : c.parseDocument = .ok doc ↔ l.Declares doc := by
  constructor
  · intro parsed
    obtain ⟨d, closed, dd, read⟩ | ⟨e, read, _⟩ := s.parseDocument
    · rw [read] at parsed
      cases parsed
      exact ⟨closed, d, dd, rfl⟩
    · rw [read] at parsed
      cases parsed
  · rintro ⟨closed, d, dd, rfl⟩
    obtain ⟨d', _, dd', read⟩ | ⟨e, _, f⟩ := s.parseDocument
    · rw [read, dd'.unique dd]
    · exact absurd (dd.viable closed) f.not_viable

/-- A text is a document just if the grammar derives its tokens and its end is not cut short, and
it is the document that the derivation declares, of which there is never a second one. A cursor
that has met no failure reads the same from the tokens ahead of it, which are the last ones of the
text. -/
theorem parse_eq_ok_iff (doc : Document) :
    (∀ source, Document.parse source = .ok doc ↔ (Lexed.ofSource source).Declares doc) ∧
      (∀ source steps, ¬((Cursor.ofSource source).afterAll steps).isBroken →
        let c := (Cursor.ofSource source).afterAll steps
        (c.parseDocument = .ok doc ↔ c.ahead.Declares doc) ∧
          c.ahead.tokens <:+ (Lexed.ofSource source).tokens ∧
          c.ahead.failure = (Lexed.ofSource source).failure) ∧
      ∀ ts, {d | DocumentNode.Derives d ts}.Subsingleton := by
  refine ⟨?_, ?_, ?_⟩
  · intro source
    exact (Cursor.sees_ofSource source).parseDocument_eq_ok_iff doc
  · intro source steps ok
    obtain ⟨l, s, suffix, failure, _⟩ := Cursor.sees_afterAll steps (Cursor.sees_ofSource source) ok
    have e := s.eq_ahead ok
    subst e
    exact ⟨s.parseDocument_eq_ok_iff doc, suffix, failure⟩
  · intro ts d dd d' dd'
    exact dd.unique dd'

/-- Behind a word that has been passed stands a document of which one member has a tag. -/
theorem parseDocument_after_word :
    ¬((Cursor.ofSource "x package p type T enum \x7b A `a` B \x7d").afterAll [.advance]).isBroken ∧
      ((Cursor.ofSource "x package p type T enum \x7b A `a` B \x7d").afterAll
        [.advance]).parseDocument = .ok ⟨"p", [⟨"T", .int, [⟨"A", "a"⟩, ⟨"B", "B"⟩]⟩]⟩ := by
  generalize e : (Cursor.ofSource "x package p type T enum \x7b A `a` B \x7d").afterAll
    [.advance] = c
  have ok : c.isBroken = false := by rw [← e]; cbv
  have tokens : c.ahead.tokens.map Prod.fst =
      [⟨.package, "package"⟩, ⟨.ident, "p"⟩, ⟨.type, "type"⟩, ⟨.ident, "T"⟩, ⟨.enum, "enum"⟩,
        ⟨.lbrace, "\x7b"⟩, ⟨.ident, "A"⟩, ⟨.tag, "a"⟩, ⟨.ident, "B"⟩, ⟨.rbrace, "\x7d"⟩] := by
    rw [← e]
    cbv
  have closed : c.ahead.failure = none := by rw [← e]; cbv
  have dd : DocumentNode.Derives ⟨"p", [⟨"T", .omitted, [⟨"A", some "a"⟩, ⟨"B", none⟩]⟩]⟩
      (c.ahead.tokens.map Prod.fst) := by
    rw [tokens]
    have base : BaseNode.Derives .omitted [⟨.lbrace, "\x7b"⟩] := .omitted
    have members : Star MemberNode.Derives [⟨"A", some "a"⟩, ⟨"B", none⟩]
        [⟨.ident, "A"⟩, ⟨.tag, "a"⟩, ⟨.ident, "B"⟩] :=
      .cons MemberNode.Derives.tagged (.cons MemberNode.Derives.plain .nil)
    exact .mk (.cons (EnumNode.Derives.mk base members) .nil)
  subst e
  have ok' := Bool.eq_false_iff.mp ok
  exact ⟨ok', ((parse_eq_ok_iff _).2.1 _ [.advance] ok').1.mpr ⟨closed, _, dd, rfl⟩⟩

end EnumGen
