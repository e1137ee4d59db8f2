import EnumGen.Proofs.Document.Acceptance
import EnumGen.Proofs.Token.Written

/-!
# Documents and the texts they are written as

A document can be written out in many ways: with any gaps between its tokens, with `int` or without
it, and with a tag that is the name of its member or without it. All of them are read back as the
document, and nothing else is, if its names are identifiers and its tags hold no backtick. No other
document is ever read (`parse_eq_ok_iff_writtenAs`).
-/

namespace EnumGen

open Grammar

/-! ## Documents that can be written -/

/-- A name that can stand in a file, and a tag that can stand between backticks. -/
structure Member.WellFormed (m : Member) : Prop where
  name : IsIdentifier m.name
  tag : backtick ∉ m.tag.toList

structure EnumType.WellFormed (e : EnumType) : Prop where
  name : IsIdentifier e.name
  members : ∀ m ∈ e.members, m.WellFormed

structure Document.WellFormed (d : Document) : Prop where
  package : IsIdentifier d.package
  enums : ∀ e ∈ d.enums, e.WellFormed

namespace Grammar

/-! ## The tokens of a derivation -/

/-- The name, and the tag if it is written. -/
def MemberNode.tokens (m : MemberNode) : List Token :=
  ⟨.ident, m.name⟩ :: m.tag.toList.map fun tag => ⟨.tag, tag⟩

/-- The opening brace, with the integer type before it if it is written. -/
def BaseNode.tokens : BaseNode → List Token
  | omitted => [⟨.lbrace, "\x7b"⟩]
  | named t => [⟨.int t, t.name⟩, ⟨.lbrace, "\x7b"⟩]

/-- A definition as its tokens. -/
def EnumNode.tokens (e : EnumNode) : List Token :=
  ⟨.type, "type"⟩ :: ⟨.ident, e.name⟩ :: ⟨.enum, "enum"⟩ ::
    (e.base.tokens ++ (e.members.flatMap MemberNode.tokens ++ [⟨.rbrace, "\x7d"⟩]))

/-- A document as its tokens. -/
def DocumentNode.tokens (d : DocumentNode) : List Token :=
  ⟨.package, "package"⟩ :: ⟨.ident, d.package⟩ :: d.enums.flatMap EnumNode.tokens

/-- The derivation of a document in which nothing is left out. -/
def DocumentNode.ofDocument (d : Document) : DocumentNode :=
  ⟨d.package, d.enums.map fun e =>
    ⟨e.name, .named e.base, e.members.map fun m => ⟨m.name, some m.tag⟩⟩⟩

lemma DocumentNode.document_ofDocument (d : Document) : (ofDocument d).document = d := by
  have member : MemberNode.member ∘ (fun m : Member => ⟨m.name, some m.tag⟩) = id := rfl
  have enum : EnumNode.enumType ∘ (fun e : EnumType =>
      ⟨e.name, .named e.base, e.members.map fun m => ⟨m.name, some m.tag⟩⟩) = id := by
    funext e
    simp only [Function.comp_apply, EnumNode.enumType, BaseNode.type, List.map_map, member,
      List.map_id, id]
  rw [document, ofDocument, List.map_map, enum, List.map_id]

lemma Star.flatMap {α : Type} {D : α → List Token → Prop} {f : α → List Token}
    (h : ∀ a, D a (f a)) (as : List α) : Star D as (as.flatMap f) := by
  induction as with
  | nil => exact .nil
  | cons a as ih => exact .cons (h a) ih

/-- The tokens of a derivation are those that it derives. -/
lemma DocumentNode.derives_tokens (d : DocumentNode) : d.Derives d.tokens := by
  have member (m : MemberNode) : m.Derives m.tokens := by
    obtain ⟨name, tag⟩ := m
    cases tag with
    | none => exact .plain
    | some tag => exact .tagged
  have base (b : BaseNode) : b.Derives b.tokens := by
    cases b with
    | omitted => exact .omitted
    | named t => exact .named
  have enum (e : EnumNode) : e.Derives e.tokens := .mk (base e.base) (.flatMap member e.members)
  exact .mk (.flatMap enum d.enums)

/-- What parts are derived from is settled if it is settled for each of them. -/
lemma Star.eq_flatMap {α : Type} {D : α → List Token → Prop} {f : α → List Token}
    {as u} (s : Star D as u) (h : ∀ a v, D a v → (∀ t ∈ v, t.Occurs) → v = f a)
    (oc : ∀ t ∈ u, t.Occurs) : u = as.flatMap f := by
  induction s with
  | nil => rfl
  | cons da _ ih =>
    rw [List.forall_mem_append] at oc
    rw [List.flatMap_cons, ← h _ _ da oc.1, ← ih oc.2]

lemma lexeme_eq {kind : TokenKind} {l l' : String} (oc : Token.Occurs ⟨kind, l⟩)
    (fixed : kind.text? = some l') : l = l' := by
  obtain ⟨text, rest, sp⟩ := oc
  exact sp.lexeme_of_text? fixed

lemma MemberNode.Derives.eq_tokens {m : MemberNode} {u} (dm : m.Derives u) : u = m.tokens := by
  cases dm <;> rfl

lemma BaseNode.Derives.eq_tokens {b : BaseNode} {u} (db : b.Derives u)
    (oc : ∀ t ∈ u, t.Occurs) : u = b.tokens := by
  cases db with
  | @omitted l =>
    obtain rfl := lexeme_eq (oc ⟨.lbrace, l⟩ (by simp)) rfl
    rfl
  | @named t l l' =>
    obtain rfl := lexeme_eq (oc ⟨.int t, l⟩ (by simp)) rfl
    obtain rfl := lexeme_eq (oc ⟨.lbrace, l'⟩ (by simp)) rfl
    rfl

lemma EnumNode.Derives.eq_tokens {e : EnumNode} {u} (de : e.Derives u)
    (oc : ∀ t ∈ u, t.Occurs) : u = e.tokens := by
  cases de with
  | @mk n b ms v w l l' l'' db sm =>
    obtain rfl := lexeme_eq (oc ⟨.type, l⟩ (by simp)) rfl
    obtain rfl := lexeme_eq (oc ⟨.enum, l'⟩ (by simp)) rfl
    obtain rfl := lexeme_eq (oc ⟨.rbrace, l''⟩ (by simp)) rfl
    have base : v = b.tokens := db.eq_tokens fun t mem => oc t (by simp [mem])
    have members : w = ms.flatMap MemberNode.tokens :=
      sm.eq_flatMap (fun _ _ dm _ => dm.eq_tokens) fun t mem => oc t (by simp [mem])
    rw [base, members]
    rfl

/-- A derivation from tokens that occur derives its own tokens. -/
lemma DocumentNode.Derives.eq_tokens {d : DocumentNode} {u} (dd : d.Derives u)
    (oc : ∀ t ∈ u, t.Occurs) : u = d.tokens := by
  cases dd with
  | @mk n es u l se =>
    obtain rfl := lexeme_eq (oc ⟨.package, l⟩ (by simp)) rfl
    have enums : u = es.flatMap EnumNode.tokens :=
      se.eq_flatMap (fun _ _ de => de.eq_tokens) fun t mem => oc t (by simp [mem])
    rw [enums]
    rfl

/-! ## Which derivations can be written -/

/-- A member that can be written is one whose tokens occur. -/
lemma MemberNode.wellFormed_iff (m : MemberNode) :
    m.member.WellFormed ↔ ∀ t ∈ m.tokens, t.Occurs := by
  obtain ⟨name, tag⟩ := m
  cases tag with
  | none =>
    rw [tokens, Option.toList_none, List.map_nil, List.forall_mem_singleton, occurs_ident]
    constructor
    · exact fun wf => wf.name
    · intro id
      exact ⟨id, id.backtick_not_mem⟩
  | some tag =>
    rw [tokens, Option.toList_some, List.map_singleton, List.forall_mem_cons,
      List.forall_mem_singleton, occurs_ident, occurs_tag]
    exact ⟨fun wf => ⟨wf.name, wf.tag⟩, fun ⟨id, no⟩ => ⟨id, no⟩⟩

lemma BaseNode.occurs_tokens (b : BaseNode) : ∀ t ∈ b.tokens, t.Occurs := by
  cases b with
  | omitted =>
    rw [tokens, List.forall_mem_singleton]
    exact occurs_of_text? rfl
  | named t =>
    rw [tokens, List.forall_mem_cons, List.forall_mem_singleton]
    exact ⟨occurs_of_text? rfl, occurs_of_text? rfl⟩

/-- An enum type that can be written is one whose tokens occur. -/
lemma EnumNode.wellFormed_iff (e : EnumNode) :
    e.enumType.WellFormed ↔ ∀ t ∈ e.tokens, t.Occurs := by
  have members : (∀ m ∈ e.enumType.members, m.WellFormed) ↔
      ∀ t ∈ e.members.flatMap MemberNode.tokens, t.Occurs := by
    rw [enumType, List.forall_mem_map, List.forall_mem_flatMap]
    exact forall₂_congr fun m _ => m.wellFormed_iff
  rw [tokens, List.forall_mem_cons, List.forall_mem_cons, List.forall_mem_cons,
    List.forall_mem_append, List.forall_mem_append, List.forall_mem_singleton, occurs_ident,
    ← members]
  constructor
  · intro wf
    exact ⟨occurs_of_text? rfl, wf.name, occurs_of_text? rfl, e.base.occurs_tokens, wf.members,
      occurs_of_text? rfl⟩
  · rintro ⟨-, id, -, -, ms, -⟩
    exact ⟨id, ms⟩

/-- A document that can be written is one whose tokens occur. -/
lemma DocumentNode.wellFormed_iff (d : DocumentNode) :
    d.document.WellFormed ↔ ∀ t ∈ d.tokens, t.Occurs := by
  have enums : (∀ e ∈ d.document.enums, e.WellFormed) ↔
      ∀ t ∈ d.enums.flatMap EnumNode.tokens, t.Occurs := by
    rw [document, List.forall_mem_map, List.forall_mem_flatMap]
    exact forall₂_congr fun e _ => e.wellFormed_iff
  rw [tokens, List.forall_mem_cons, List.forall_mem_cons, occurs_ident, ← enums]
  constructor
  · intro wf
    exact ⟨occurs_of_text? rfl, wf.package, wf.enums⟩
  · rintro ⟨-, id, es⟩
    exact ⟨id, es⟩

/-- No place lets a token without a meaning pass. -/
lemma Position.kind_ne_other {p q : Position} {ts : List Token} (run : p.run? ts = some q) :
    ∀ t ∈ ts, t.kind ≠ .other := by
  induction ts generalizing p with
  | nil => exact nofun
  | cons t ts ih =>
    rw [run?_cons] at run
    obtain ⟨p', next, run⟩ := Option.bind_eq_some_iff.mp run
    rw [List.forall_mem_cons]
    refine ⟨?_, ih run⟩
    intro other
    rw [other] at next
    cases p <;> cases next

end Grammar

/-! ## The texts of a document -/

/-- The text is made up of the tokens of a derivation of the document, with gaps before, between
and behind them. -/
def Document.WrittenAs (d : Document) (s : List Char) : Prop :=
  ∃ n : DocumentNode, n.document = d ∧ ∃ gap r, s = gap ++ r ∧ Trivia gap ∧ Written n.tokens r

/-- A well-formed document is read from every text that it is written as. -/
lemma Document.WellFormed.parse_eq_ok {d : Document} {source : String} (wf : d.WellFormed)
    (w : d.WrittenAs source.toList) : Document.parse source = .ok d := by
  obtain ⟨n, rfl, gap, r, e, tr, w⟩ := w
  have derives := n.derives_tokens
  have oc : ∀ t ∈ n.tokens, t.kind ≠ .other ∧ t.Occurs := by
    intro t mem
    exact ⟨Position.kind_ne_other derives.run t mem, n.wellFormed_iff.mp wf t mem⟩
  obtain ⟨ps, last, div, tokens⟩ := w.divides oc tr
  rw [← e] at div
  have s := Cursor.sees_ofSource source
  rw [Lexed.ofSource, div.ofChars] at s
  rw [Document.parse, s.parseDocument_eq_ok_iff]
  refine ⟨rfl, n, ?_, rfl⟩
  rwa [map_fst_numbered, tokens]

/-- What is read from a text is well-formed, and the text is one that it is written as. -/
lemma Document.wellFormed_of_parse {d : Document} {source : String}
    (read : Document.parse source = .ok d) : d.WellFormed ∧ d.WrittenAs source.toList := by
  obtain ⟨ps, last, e, div⟩ := exists_divides source.toList
  have s := Cursor.sees_ofSource source
  rw [Lexed.ofSource, div.ofChars] at s
  rw [Document.parse, s.parseDocument_eq_ok_iff] at read
  obtain ⟨closed, n, derives, rfl⟩ := read
  rw [map_fst_numbered] at derives
  have tokens : ps.map Piece.token = n.tokens := derives.eq_tokens div.occurs
  have ending : e = .closed := by
    cases e with
    | closed => rfl
    | cut => cases closed
  obtain ⟨gap, r, text, tr, w⟩ := div.written ending
  have oc := div.occurs
  rw [tokens] at w oc
  exact ⟨n.wellFormed_iff.mpr oc, n, rfl, gap, r, text, tr, w⟩

/-- The document in full, with every tag written and a blank behind each token. -/
def Document.text (d : Document) : String :=
  String.ofList ((DocumentNode.ofDocument d).tokens.flatMap fun t => t.spelling ++ [' '])

lemma Document.writtenAs_text (d : Document) : d.WrittenAs d.text.toList := by
  rw [text, String.toList_ofList]
  exact ⟨_, DocumentNode.document_ofDocument d, [], _, rfl, .nil, written_spaced _⟩

/-- Every document is written as some text. -/
lemma Document.exists_writtenAs (d : Document) : ∃ source : String, d.WrittenAs source.toList :=
  ⟨d.text, d.writtenAs_text⟩

/-- A document is read from exactly the texts that it is written as, if it is well-formed, and
from no text if it is not. -/
theorem parse_eq_ok_iff_writtenAs (d : Document) :
    (∀ source, Document.parse source = .ok d ↔ d.WellFormed ∧ d.WrittenAs source.toList) ∧
      ((∃ source, Document.parse source = .ok d) ↔ d.WellFormed) := by
  constructor
  · intro source
    constructor
    · exact Document.wellFormed_of_parse
    · rintro ⟨wf, w⟩
      exact wf.parse_eq_ok w
  · constructor
    · rintro ⟨source, read⟩
      exact (Document.wellFormed_of_parse read).1
    · intro wf
      obtain ⟨source, w⟩ := d.exists_writtenAs
      exact ⟨source, wf.parse_eq_ok w⟩

end EnumGen
