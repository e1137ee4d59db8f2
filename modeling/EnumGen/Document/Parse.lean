import EnumGen.Document
import EnumGen.Document.Cursor

/-!
# Reading a definition file

```text
document   ::= "package" identifier definition*
definition ::= "type" identifier "enum" base member* "}"
base       ::= "{" | int-type "{"
member     ::= identifier tag?
```

The base type is `int` unless another one is named, and a member's tag is its name unless a tag
follows it. A file is read by steps: outside a definition a step reads its header, inside one it
reads a member or the closing brace. Each step that is taken lowers the cursor's weight
(`Reading.weight_step_lt`), so reading ends.
-/

namespace EnumGen

/-- An enum type whose closing brace has not been read. -/
structure OpenEnum where
  name : String
  base : IntType
  members : Array Member
  deriving DecidableEq, Repr

/-- The enum type with the members read so far. -/
def OpenEnum.close (e : OpenEnum) : EnumType :=
  ⟨e.name, e.base, e.members.toList⟩

namespace Cursor

/-- Reads what stands between `enum` and the first member. -/
def base? (c : Cursor) : Option IntType × Cursor :=
  match c.take? .lbrace with
  | (some _, c) => (some .int, c)
  | (none, c) =>
    match c.takeAny? TokenKind.ints with
    | (some (.int base), c) =>
      match c.require? .lbrace with
      | (some _, c) => (some base, c)
      | (none, c) => (none, c)
    | (_, c) => (none, c.failExpecting "'\x7b' or <int-type>")

/-- Reads a definition up to its opening brace. -/
def header? (c : Cursor) : Option OpenEnum × Cursor :=
  match c.require? .type with
  | (none, c) => (none, c)
  | (some _, c) =>
    match c.require? .ident with
    | (none, c) => (none, c)
    | (some name, c) =>
      match c.require? .enum with
      | (none, c) => (none, c)
      | (some _, c) =>
        match c.base? with
        | (none, c) => (none, c)
        | (some base, c) => (some ⟨name, base, #[]⟩, c)

/-- Reads a member with its tag, if it has one. -/
def member? (c : Cursor) : Option Member × Cursor :=
  match c.require? .ident with
  | (none, c) => (none, c)
  | (some name, c) =>
    match c.take? .tag with
    | (some tag, c) => (some ⟨name, tag⟩, c)
    | (none, c) => (some (.ofName name), c)

end Cursor

/-- A definition file of which a part has been read. -/
structure Reading where
  cursor : Cursor
  package : String
  enums : Array EnumType
  opened : Option OpenEnum
  deriving DecidableEq, Repr

namespace Reading

/-- What has been declared so far. -/
def document (r : Reading) : Document :=
  ⟨r.package, r.enums.toList⟩

/-- Nothing more is to be read: a failure was met, or the input ended outside a definition. -/
def isOver (r : Reading) : Bool :=
  r.cursor.isBroken || r.opened.isNone && r.cursor.current.isEof

/-- Reads a member or the closing brace. -/
def stepInside (r : Reading) (e : OpenEnum) : Reading :=
  if r.cursor.current.isEof then { r with cursor := (r.cursor.require? .rbrace).2 }
  else
    match r.cursor.take? .rbrace with
    | (some _, c) =>
      { r with
        cursor := c.note (.closed e.name e.members.size)
        enums := r.enums.push e.close
        opened := none }
    | (none, c) =>
      match c.member? with
      | (some m, c) => { r with cursor := c, opened := some { e with members := e.members.push m } }
      | (none, c) => { r with cursor := c }

/-- Reads the header of a definition. -/
def stepOutside (r : Reading) : Reading :=
  let (opened, c) := r.cursor.header?
  { r with cursor := c, opened }

/-- Reads on by one header, member or closing brace. -/
def step (r : Reading) : Reading :=
  match r.opened with
  | some e => r.stepInside e
  | none => r.stepOutside

end Reading

/-! ## Progress -/

namespace Cursor

theorem weight_base?_le (c : Cursor) : c.base?.2.weight ≤ c.weight := by
  have take := weight_take?_le c .lbrace
  unfold base?
  split
  · rename_i h
    simpa [h] using take
  · rename_i c₁ h
    have some := weight_takeAny?_le c₁ TokenKind.ints
    simp only [h] at take
    split
    · rename_i c₂ h₂
      have brace := weight_require?_le c₂ .lbrace
      simp only [h₂] at some
      grind
    · simp

theorem weight_header?_lt {c : Cursor} (hb : ¬c.isBroken) : c.header?.2.weight < c.weight := by
  have type := weight_require?_lt (by decide : TokenKind.type ≠ .eof) hb
  unfold header?
  split
  · simp_all
  · rename_i c₁ h₁
    have name := weight_require?_le c₁ .ident
    split
    · simp_all; omega
    · rename_i c₂ h₂
      have enum := weight_require?_le c₂ .enum
      split
      · simp_all; omega
      · rename_i c₃ h₃
        have base := weight_base?_le c₃
        split <;> simp_all <;> omega

theorem weight_member?_lt {c : Cursor} (hb : ¬c.isBroken) : c.member?.2.weight < c.weight := by
  have name := weight_require?_lt (by decide : TokenKind.ident ≠ .eof) hb
  unfold member?
  split
  · simp_all
  · rename_i c₁ h₁
    have tag := weight_take?_le c₁ .tag
    split <;> simp_all <;> omega

end Cursor

namespace Reading

/-- Every step moves the cursor or meets a failure. -/
theorem weight_step_lt {r : Reading} (h : ¬r.isOver) : r.step.cursor.weight < r.cursor.weight := by
  have hb : ¬r.cursor.isBroken := by grind [isOver]
  unfold step
  split
  · rename_i e he
    unfold stepInside
    split
    · exact Cursor.weight_require?_lt (by decide : TokenKind.rbrace ≠ .eof) hb
    · split
      · rename_i h
        simpa using Cursor.weight_take?_lt (by decide : TokenKind.rbrace ≠ .eof) h
      · rename_i c hc
        have : c = r.cursor := by
          unfold Cursor.take? at hc
          split at hc <;> simp_all
        subst this
        have := Cursor.weight_member?_lt hb
        split <;> simp_all
  · exact Cursor.weight_header?_lt hb

/-- Reads until a failure or the end of the input. -/
def run (r : Reading) : Reading :=
  if r.isOver then r else r.step.run
termination_by r.cursor.weight
decreasing_by exact weight_step_lt ‹_›

end Reading

namespace Cursor

/-- Reads a document from the place of the cursor on, and leaves the cursor where reading ended. -/
def readDocument (c : Cursor) : Document × Cursor :=
  let c := (c.require? .package).2
  match c.require? .ident with
  | (none, c) => (.empty, c)
  | (some package, c) =>
    let r := Reading.run ⟨c, package, #[], none⟩
    (r.document, r.cursor)

/-- The document from the place of the cursor on, or the first failure. -/
def parseDocument (c : Cursor) : Except ParseError Document :=
  let (document, c) := c.readDocument
  c.finish document

end Cursor

namespace Document

/-- The document that a text describes, or the first failure. -/
def parse (source : String) : Except ParseError Document :=
  (Cursor.ofSource source).parseDocument

/-- What happens while a text is read, in order. -/
def parseEvents (source : String) : Array ParseEvent :=
  (Cursor.ofSource source).readDocument.2.events

end Document

end EnumGen
