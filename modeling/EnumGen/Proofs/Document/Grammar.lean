import EnumGen.Document.Parse
import Mathlib.Tactic.Lemma

/-!
# The grammar of definition files

```text
document   ::= "package" identifier definition*
definition ::= "type" identifier "enum" base member* "}"
base       ::= "{" | int-type "{"
member     ::= identifier tag?
```

The grammar stands apart from the way a file is read. Its derivations are trees of nodes, one kind
of node for each rule, and `Derives` relates a node to the tokens at its leaves. A leaf is told by
the kind of its token; the text of a token counts where the rule says `identifier` or `tag`. Each
node stands for what it declares (`DocumentNode.document`).

The main statement is that a list of tokens has at most one derivation
(`DocumentNode.Derives.unique`).
-/

namespace EnumGen.Grammar

/-! ## Nodes -/

/-- A derivation of a member. -/
structure MemberNode where
  name : String
  tag : Option String
  deriving DecidableEq, Repr

/-- A derivation of the base of an enum type. -/
inductive BaseNode
  | omitted
  | named (t : IntType)
  deriving DecidableEq, Repr

/-- A derivation of the definition of an enum type. -/
structure EnumNode where
  name : String
  base : BaseNode
  members : List MemberNode
  deriving DecidableEq, Repr

/-- A derivation of a document. -/
structure DocumentNode where
  package : String
  enums : List EnumNode
  deriving DecidableEq, Repr

/-- The member that is declared: its tag is its name unless a tag is written. -/
def MemberNode.member (m : MemberNode) : Member :=
  ⟨m.name, m.tag.getD m.name⟩

/-- The base type that is declared: it is `int` unless another one is named. -/
def BaseNode.type : BaseNode → IntType
  | omitted => .int
  | named t => t

/-- The enum type that is declared. -/
def EnumNode.enumType (e : EnumNode) : EnumType :=
  ⟨e.name, e.base.type, e.members.map MemberNode.member⟩

/-- The document that is declared. -/
def DocumentNode.document (d : DocumentNode) : Document :=
  ⟨d.package, d.enums.map EnumNode.enumType⟩

/-! ## Derivations -/

/-- The nodes derive the tokens one after the other. -/
inductive Star {α : Type} (D : α → List Token → Prop) : List α → List Token → Prop
  | nil : Star D [] []
  | cons {a as u v} : D a u → Star D as v → Star D (a :: as) (u ++ v)

/-- An identifier, and a tag if there is one. -/
inductive MemberNode.Derives : MemberNode → List Token → Prop
  | plain {n} : Derives ⟨n, none⟩ [⟨.ident, n⟩]
  | tagged {n t} : Derives ⟨n, some t⟩ [⟨.ident, n⟩, ⟨.tag, t⟩]

/-- An opening brace, with an integer type before it if one is named. -/
inductive BaseNode.Derives : BaseNode → List Token → Prop
  | omitted {l} : Derives .omitted [⟨.lbrace, l⟩]
  | named {t l l'} : Derives (.named t) [⟨.int t, l⟩, ⟨.lbrace, l'⟩]

/-- `type`, the name, `enum`, the base, the members and a closing brace. -/
inductive EnumNode.Derives : EnumNode → List Token → Prop
  | mk {n b ms v w l l' l''} : b.Derives v → Star MemberNode.Derives ms w →
    Derives ⟨n, b, ms⟩
      (⟨.type, l⟩ :: ⟨.ident, n⟩ :: ⟨.enum, l'⟩ :: (v ++ (w ++ [⟨.rbrace, l''⟩])))

/-- `package`, the name and the definitions. -/
inductive DocumentNode.Derives : DocumentNode → List Token → Prop
  | mk {n es u l} : Star EnumNode.Derives es u →
    Derives ⟨n, es⟩ (⟨.package, l⟩ :: ⟨.ident, n⟩ :: u)

lemma Star.append {α : Type} {D : α → List Token → Prop} {as bs u v} (sa : Star D as u)
    (sb : Star D bs v) : Star D (as ++ bs) (u ++ v) := by
  induction sa with
  | nil => exact sb
  | cons da _ ih =>
    rw [List.append_assoc]
    exact .cons da ih

lemma Star.snoc {α : Type} {D : α → List Token → Prop} {as a u v} (sa : Star D as u) (da : D a v) :
    Star D (as ++ [a]) (u ++ v) := by
  apply sa.append
  rw [← List.append_nil v]
  exact .cons da .nil

/-- The document with one more definition at its end. -/
def DocumentNode.push (d : DocumentNode) (e : EnumNode) : DocumentNode :=
  ⟨d.package, d.enums ++ [e]⟩

lemma DocumentNode.document_push (d : DocumentNode) (e : EnumNode) :
    (d.push e).document = ⟨d.document.package, d.document.enums ++ [e.enumType]⟩ := by
  simp [document, push]

lemma DocumentNode.Derives.push {d : DocumentNode} {e : EnumNode} {u v} (dd : d.Derives u)
    (de : e.Derives v) : (d.push e).Derives (u ++ v) := by
  cases dd with
  | mk se => exact .mk (se.snoc de)

/-! ## Derivations are unique -/

/-- What starts with a name or a brace does not start with a tag. -/
lemma Star.not_tag {ms w s l} (sm : Star MemberNode.Derives ms w) :
    ∀ t ts, w ++ ⟨.rbrace, l⟩ :: s = t :: ts → t.kind ≠ .tag := by
  intro t ts e
  cases sm with
  | nil => cases e; exact nofun
  | cons dm _ => cases dm <;> cases e <;> exact nofun

/-- Before a closing brace, members are derived in one way only. -/
lemma Star.unique_members {ms ms' w w' s s' l l'} (sm : Star MemberNode.Derives ms w)
    (sm' : Star MemberNode.Derives ms' w')
    (e : w ++ ⟨.rbrace, l⟩ :: s = w' ++ ⟨.rbrace, l'⟩ :: s') : ms = ms' ∧ s = s' := by
  induction sm generalizing ms' w' with
  | nil =>
    cases sm' with
    | nil => exact ⟨rfl, by cases e; rfl⟩
    | cons dm _ => cases dm <;> cases e
  | @cons m ms u v dm sm ih =>
    cases sm' with
    | nil => cases dm <;> cases e
    | @cons m' ms' u' v' dm' sm' =>
      rw [List.append_assoc, List.append_assoc] at e
      -- Two members differ at most in a tag, which the one without it cannot be followed by.
      cases dm with
      | plain =>
        cases dm' with
        | plain =>
          injection e with en e
          cases en
          obtain ⟨rfl, es⟩ := ih sm' e
          exact ⟨rfl, es⟩
        | tagged =>
          injection e with _ e
          exact absurd rfl (sm.not_tag _ _ e)
      | tagged =>
        cases dm' with
        | plain =>
          injection e with _ e
          exact absurd rfl (sm'.not_tag _ _ e.symm)
        | tagged =>
          injection e with en e
          injection e with et e
          cases en
          cases et
          obtain ⟨rfl, es⟩ := ih sm' e
          exact ⟨rfl, es⟩

lemma BaseNode.Derives.unique {b b' : BaseNode} {v v' s s'} (db : b.Derives v)
    (db' : b'.Derives v') (e : v ++ s = v' ++ s') : b = b' ∧ s = s' := by
  cases db <;> cases db' <;> cases e <;> exact ⟨rfl, rfl⟩

lemma EnumNode.Derives.unique {d d' : EnumNode} {u u' s s'} (de : d.Derives u)
    (de' : d'.Derives u') (e : u ++ s = u' ++ s') : d = d' ∧ s = s' := by
  cases de with
  | mk db sm =>
    cases de' with
    | mk db' sm' =>
      simp only [List.cons_append, List.append_assoc, List.nil_append] at e
      injection e with _ e
      injection e with en e
      injection e with _ e
      cases en
      obtain ⟨rfl, e⟩ := db.unique db' e
      obtain ⟨rfl, es⟩ := sm.unique_members sm' e
      exact ⟨rfl, es⟩

lemma Star.unique_enums {ds ds' u} (se : Star EnumNode.Derives ds u) :
    Star EnumNode.Derives ds' u → ds = ds' := by
  induction se generalizing ds' with
  | nil =>
    intro se'
    generalize e : [] = u at se'
    cases se' with
    | nil => rfl
    | cons de' _ => cases de'; cases e
  | @cons d ds u v de _ ih =>
    intro se'
    generalize e : u ++ v = s at se'
    cases se' with
    | nil => cases de; cases e
    | cons de' se' =>
      obtain ⟨rfl, rfl⟩ := de.unique de' e
      rw [ih se']

/-- A list of tokens has at most one derivation. -/
lemma DocumentNode.Derives.unique {d d' : DocumentNode} {ts} (dd : d.Derives ts)
    (dd' : d'.Derives ts) : d = d' := by
  cases dd with
  | mk se =>
    cases dd' with
    | mk se' => rw [se.unique_enums se']

end EnumGen.Grammar
