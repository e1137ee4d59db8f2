import EnumGen.Proofs.Document.Acceptance
import Mathlib.Data.List.Induction

/-!
# The grammar as an automaton

Tokens lead to a place just if they are a run of the places that ends there (`reaches_iff_run`), and
they are a whole document just if that place is the one between definitions (`derives_iff_run`). So
what may follow depends on the place alone, and not on the tokens before it.

For a text that is no document this settles the error: it is due at the first token that the place
before it does not let pass, and there is no other (`Fails.unique`). A cursor on its first token fails
with this error and with no other (`Cursor.Sees.parseDocument_eq_error_iff`).
-/

namespace EnumGen

namespace Grammar

/-! ## Places that can be reached -/

lemma Star.snoc_cases {α : Type} {D : α → List Token → Prop} {as u} (s : Star D as u) :
    as = [] ∧ u = [] ∨
      ∃ bs a v w, as = bs ++ [a] ∧ u = v ++ w ∧ Star D bs v ∧ D a w := by
  induction s with
  | nil => exact .inl ⟨rfl, rfl⟩
  | @cons a as u v da s ih =>
    right
    obtain ⟨rfl, rfl⟩ | ⟨bs, b, v, w, rfl, rfl, sb, db⟩ := ih
    · exact ⟨[], a, [], u, rfl, List.append_nil u, .nil, da⟩
    · exact ⟨a :: bs, b, u ++ v, w, rfl, (List.append_assoc u v w).symm, .cons da sb, db⟩

lemma bodyPosition_snoc (ms : List MemberNode) (m : MemberNode) :
    bodyPosition (ms ++ [m]) = m.position := by
  simp [bodyPosition]

/-- Where a tag may stand, the last member has been read without one. -/
lemma Star.last_of_named {ms w} (sm : Star MemberNode.Derives ms w)
    (named : bodyPosition ms = .named) :
    ∃ ms' w' n, w = w' ++ [⟨.ident, n⟩] ∧ Star MemberNode.Derives ms' w' := by
  obtain ⟨rfl, rfl⟩ | ⟨ms', m, w', x, rfl, rfl, sm', dm⟩ := sm.snoc_cases
  · cases named
  · rw [bodyPosition_snoc] at named
    cases dm with
    | plain => exact ⟨ms', w', _, rfl, sm'⟩
    | tagged => cases named

/-- A token that may stand at a place leads to the place behind it. -/
lemma Reaches.next {u p q t} (r : Reaches u p) (may : p.next? t.kind = some q) :
    Reaches (u ++ [t]) q := by
  obtain ⟨kind, l⟩ := t
  cases r with
  | start =>
    cases kind <;> cases may
    exact .packageName
  | packageName =>
    cases kind <;> cases may
    exact .outside (.mk .nil)
  | outside dd =>
    cases kind <;> cases may
    exact .typeName dd
  | typeName dd =>
    cases kind <;> cases may
    rw [List.append_assoc]
    exact .enumWord dd
  | enumWord dd =>
    cases kind <;> cases may
    rw [List.append_assoc]
    exact .base dd
  | base dd =>
    rw [List.append_assoc]
    cases kind <;> cases may
    · exact .body dd .omitted .nil
    · exact .brace dd
  | brace dd =>
    cases kind <;> cases may
    rw [List.append_assoc]
    exact .body dd .named .nil
  | @body d u x n y b v ms w dd db sm =>
    have behind {ms' w'} (sm' : Star MemberNode.Derives ms' w') :
        Reaches (u ++ (⟨.type, x⟩ :: ⟨.ident, n⟩ :: ⟨.enum, y⟩ :: (v ++ w'))) (bodyPosition ms') :=
      .body dd db sm'
    have member {m z} (dm : MemberNode.Derives m z) :
        Reaches (u ++ (⟨.type, x⟩ :: ⟨.ident, n⟩ :: ⟨.enum, y⟩ :: (v ++ w)) ++ z) m.position := by
      have at' := behind (sm.snoc dm)
      rw [bodyPosition_snoc] at at'
      simpa using at'
    have close {z} :
        Reaches (u ++ (⟨.type, x⟩ :: ⟨.ident, n⟩ :: ⟨.enum, y⟩ :: (v ++ w)) ++ [⟨.rbrace, z⟩])
          .outside := by
      have whole : EnumNode.Derives ⟨n, b, ms⟩
          (⟨.type, x⟩ :: ⟨.ident, n⟩ :: ⟨.enum, y⟩ :: (v ++ (w ++ [⟨.rbrace, z⟩]))) := .mk db sm
      simpa using Reaches.outside (dd.push whole)
    obtain is | is := foldl_position_isInside ms (.inl rfl)
    · rw [bodyPosition, is] at may
      cases kind <;> cases may
      · exact member .plain
      · exact close
    · have named : bodyPosition ms = .named := is
      rw [named] at may
      cases kind <;> cases may
      · exact member .plain
      · exact close
      · -- the tag belongs to the last member, which is taken back and read again with it
        obtain ⟨ms', w', n', rfl, sm'⟩ := sm.last_of_named named
        have tagged : MemberNode.Derives ⟨n', some l⟩ [⟨.ident, n'⟩, ⟨.tag, l⟩] := .tagged
        have at' := behind (sm'.snoc tagged)
        rw [bodyPosition_snoc] at at'
        have inside : Reaches _ .inside := at'
        simpa using inside

/-- Tokens lead to a place just if they are a run that ends there. -/
lemma reaches_iff_run {u p} : Reaches u p ↔ Position.start.run? u = some p := by
  constructor
  · exact Reaches.run
  · intro run
    induction u using List.reverseRecOn generalizing p with
    | nil =>
      cases run
      exact .start
    | append_singleton u t ih =>
      rw [run?_append] at run
      obtain ⟨q, before, last⟩ := Option.bind_eq_some_iff.mp run
      rw [run?_cons] at last
      obtain ⟨p', may, is⟩ := Option.bind_eq_some_iff.mp last
      cases is
      exact (ih before).next may

/-- Tokens are a document just if they are a run that ends between definitions. -/
lemma derives_iff_run {ts} :
    (∃ d, DocumentNode.Derives d ts) ↔ Position.start.run? ts = some .outside := by
  constructor
  · rintro ⟨d, dd⟩
    exact dd.run
  · intro run
    have at' := reaches_iff_run.mpr run
    generalize is : Position.outside = p at at'
    cases at' with
    | outside dd => exact ⟨_, dd⟩
    | @body _ _ _ _ _ _ _ ms =>
      obtain inside | inside := foldl_position_isInside ms (.inl rfl) <;>
      · rw [bodyPosition, inside] at is
        cases is
    | _ => cases is

lemma Reaches.of_append {u v q} (r : Reaches (u ++ v) q) : ∃ p, Reaches u p ∧ p.run? v = some q := by
  have run := r.run
  rw [run?_append] at run
  obtain ⟨p, before, after⟩ := Option.bind_eq_some_iff.mp run
  exact ⟨p, reaches_iff_run.mpr before, after⟩

lemma Reaches.append_iff {u v p q} (r : Reaches u p) :
    Reaches (u ++ v) q ↔ p.run? v = some q := by
  rw [reaches_iff_run, run?_append, r.run]
  rfl

end Grammar

open Grammar

/-! ## The error of a text -/

/-- What is ahead of a failure are tokens that lead to a place, and an item that it refuses. -/
lemma Fails.exists_begins {u l e} (f : Fails u l e) :
    ∃ v m p, l.Begins v m ∧ Reaches (u ++ v) p ∧ p.Refuses m.item ∧
      e = m.misfit (p.expected m.item) := by
  induction f with
  | @here u l p at' no =>
    rw [← List.append_nil u] at at'
    exact ⟨[], l, p, .nil, at', no, rfl⟩
  | @later u t n l e _ ih =>
    obtain ⟨v, m, p, begins, at', no, rfl⟩ := ih
    rw [List.append_assoc] at at'
    exact ⟨t :: v, m, p, .cons begins, at', no, rfl⟩

/-- A token that is passed on the way to a failure is not refused. -/
lemma Fails.not_refuses {u t l e p} (f : Fails (u ++ [t]) l e) (r : Reaches u p) :
    ¬p.Refuses (.token t) := by
  intro no
  obtain ⟨v, _, q, _, at', _, _⟩ := f.exists_begins
  rw [List.append_assoc, r.append_iff, List.singleton_append, run?_cons] at at'
  have stop : p.next? t.kind = none := no
  rw [stop] at at'
  cases at'

/-- A token that may stand here is not where reading fails. -/
lemma Fails.of_cons {u t n l e p} (f : Fails u (l.cons t n) e) (r : Reaches u p)
    (may : ¬p.Refuses (.token t)) : Fails (u ++ [t]) l e := by
  generalize is : l.cons t n = m at f
  cases f with
  | here at' no =>
    obtain rfl := at'.unique r
    subst is
    exact absurd no may
  | later f =>
    obtain ⟨rfl, rfl, rfl⟩ := Lexed.cons_inj is
    exact f

/-- There is one error only that is due. -/
lemma Fails.unique {u l e e'} (f : Fails u l e) (f' : Fails u l e') : e = e' := by
  induction f with
  | @here u l p at' no =>
    cases f' with
    | here at'' _ => rw [at'.unique at'']
    | later f' => exact absurd no (f'.not_refuses at')
  | @later u t n l e f ih =>
    obtain ⟨_, _, _, _, at', _, _⟩ := f.exists_begins
    rw [List.append_assoc] at at'
    obtain ⟨p, before, _⟩ := at'.of_append
    exact ih (f'.of_cons before (f.not_refuses before))

/-- A cursor fails with the error that is due, and with no other. -/
lemma Cursor.Sees.parseDocument_eq_error_iff {c : Cursor} {l : Lexed} (s : c.Sees l)
    (e : ParseError) : c.parseDocument = .error e ↔ Fails [] l e := by
  obtain ⟨d, closed, dd, read⟩ | ⟨e', read, f⟩ := s.parseDocument
  · rw [read]
    constructor
    · exact nofun
    · intro f
      exact absurd (dd.viable closed) f.not_viable
  · rw [read]
    constructor
    · intro same
      cases same
      exact f
    · intro f'
      rw [f.unique f']

end EnumGen
