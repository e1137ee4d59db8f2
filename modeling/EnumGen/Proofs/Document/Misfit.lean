import EnumGen.Proofs.Document.Acceptance
import Mathlib.Order.Bounds.Basic

/-!
# Where a text stops being a document

A text that is no document has a first item with which its items are no longer the start of one.
Reading fails there and nowhere else: the error names the line on which that item ends, what the
grammar expects at the place before it, and the item itself (`parse_eq_error_iff`).
-/

namespace EnumGen

open Grammar

/-! ## The report on an item -/

/-- The items that a divided text is read as. -/
def items (ps : List Piece) (e : Ending) : List Item :=
  ps.map (fun p => .token p.token) ++ [.ofEnding e]

/-- An item as a diagnostic calls it. -/
def Grammar.Item.describe : Item → String
  | .token t => t.kind.describe ++ " " ++ Text.quote t.lexeme
  | .eof | .failure => "end of input"

/-- The error that reports an item on a line in place of what the grammar expects. -/
def report (p : Position) (line : Nat) (i : Item) : ParseError :=
  match i with
  | .failure => .unexpectedEnd line
  | i => .misplaced line ("expected " ++ p.expected i ++ ", got " ++ i.describe)

lemma items_append (qs rs : List Piece) (e : Ending) :
    items (qs ++ rs) e = (qs.map Piece.token).map .token ++ items rs e := by
  simp [items]

/-- What is read of a text consists of the items that it is divided into. -/
lemma items_numbered (ps : List Piece) (e : Ending) (n k : Nat) :
    Lexed.items ⟨numbered n ps, e.failure k, k⟩ = items ps e := by
  have tokens : (numbered n ps).map (fun p => Item.token p.1) = ps.map (.token ·.token) := by
    rw [← Function.comp_def Item.token Prod.fst, ← List.map_map, map_fst_numbered, List.map_map]
    rfl
  rw [Lexed.items, tokens]
  cases e <;> rfl

/-- Before the first item that does not fit, the pieces lead to a place that refuses it, and the
error is the report on it. -/
lemma Fails.exists_refused {u ps n k err} {e : Ending}
    (f : Fails u ⟨numbered n ps, e.failure k, k⟩ err) :
    ∃ qs rs i p, ps = qs ++ rs ∧ Reaches (u ++ qs.map Piece.token) p ∧ p.Refuses i ∧
      (items rs e).head? = some i ∧
      err = report p (if rs = [] then k else n + newlines (joined (qs ++ rs.take 1))) i := by
  -- On the pieces, since each failure further on is met behind one more of them.
  induction ps generalizing u n with
  | nil =>
    cases f with
    | @here _ _ p at' no =>
      refine ⟨[], [], .ofEnding e, p, rfl, by simpa using at', ?_, rfl, ?_⟩
      · cases e <;> exact no
      · cases e <;> rfl
  | cons q ps ih =>
    generalize el : (⟨numbered n (q :: ps), e.failure k, k⟩ : Lexed) = l at f
    cases f with
    | @here _ _ p at' no =>
      subst el
      refine ⟨[], q :: ps, .token q.token, p, rfl, by simpa using at', no, rfl, ?_⟩
      have first : joined ([] ++ (q :: ps).take 1) = q.gap ++ q.text := by simp [joined]
      rw [if_neg (List.cons_ne_nil q ps), first]
      rfl
    | @later _ t m l _ f =>
      have parts : (⟨numbered (n + newlines (q.gap ++ q.text)) ps, e.failure k, k⟩ : Lexed).cons
          q.token (n + newlines (q.gap ++ q.text)) = l.cons t m := el
      obtain ⟨rfl, rfl, rfl⟩ := Lexed.cons_inj parts
      obtain ⟨qs, rs, i, p, rfl, at', no, head, rfl⟩ := ih f
      refine ⟨q :: qs, rs, i, p, rfl, by simpa using at', no, head, ?_⟩
      simp [joined, Nat.add_assoc]

/-! ## The first item that does not fit -/

/-- Where a place refuses an item, that item is the first that does not fit. -/
lemma Grammar.Reaches.isLeast {qs rs : List Piece} {e : Ending} {p : Position} {i : Item}
    (at' : Reaches (qs.map Piece.token) p) (no : p.Refuses i) (head : (items rs e).head? = some i) :
    IsLeast {n | ¬Viable ((items (qs ++ rs) e).take n)} (qs.length + 1) := by
  obtain ⟨is, split⟩ := List.head?_eq_some_iff.mp head
  have parts : items (qs ++ rs) e = (qs.map Piece.token).map .token ++ i :: is := by
    rw [items_append, split]
  have length : ((qs.map Piece.token).map Item.token).length = qs.length := by simp
  rw [parts]
  constructor
  · show ¬Viable _
    rw [← length, List.take_length_add_append]
    exact at'.not_viable no
  · intro n misfit
    by_contra less
    apply misfit
    have short : n ≤ qs.length := by omega
    rw [List.take_append_of_le_length (by rwa [length])]
    have v := at'.viable
    rw [← List.take_append_drop n ((qs.map Piece.token).map Item.token)] at v
    exact v.of_append

lemma items_getElem?_of_head? {qs rs : List Piece} {e : Ending} {i : Item}
    (head : (items rs e).head? = some i) : (items (qs ++ rs) e)[qs.length]? = some i := by
  have length : ((qs.map Piece.token).map Item.token).length = qs.length := by simp
  rw [items_append, List.getElem?_append_right (by rw [length]), length, Nat.sub_self,
    ← List.head?_eq_getElem?]
  exact head

/-- The text up to the item behind pieces goes on to the end of the next piece, if there is one. -/
lemma textUpTo_succ (qs rs : List Piece) (last : List Char) :
    textUpTo (qs ++ rs) last (qs.length + 1) =
      if rs = [] then joined (qs ++ rs) ++ last else joined (qs ++ rs.take 1) := by
  cases rs with
  | nil => simp [textUpTo]
  | cons r rs => simp [textUpTo, List.take_append, List.take_of_length_le (Nat.le_succ qs.length)]

/-- A failure is reported at the first item that does not fit. -/
lemma Fails.exists_isLeast {source : List Char} {ps last e err} (d : Divides source ps last e)
    (f : Fails [] ⟨numbered 1 ps, e.failure (1 + newlines source), 1 + newlines source⟩ err) :
    ∃ i item p, IsLeast {n | ¬Viable ((items ps e).take n)} i ∧
      (items ps e)[i - 1]? = some item ∧ Reaches ((ps.take (i - 1)).map Piece.token) p ∧
      err = report p (1 + newlines (textUpTo ps last i)) item := by
  obtain ⟨qs, rs, item, p, rfl, at', no, head, rfl⟩ := f.exists_refused
  rw [List.nil_append] at at'
  refine ⟨qs.length + 1, item, p, at'.isLeast no head, items_getElem?_of_head? head, ?_, ?_⟩
  · simpa using at'
  · rw [textUpTo_succ, ← d.eq_joined]
    split <;> rfl

/-- A text that is no document is reported as its first item that does not fit, with the line on
which that item ends and with what the grammar expects behind the items before it. -/
theorem parse_eq_error_iff (source : String) (err : ParseError) :
    Document.parse source = .error err ↔
      ∃ ps last e i item p, Divides source.toList ps last e ∧
        IsLeast {n | ¬Viable ((items ps e).take n)} i ∧ (items ps e)[i - 1]? = some item ∧
        Reaches ((ps.take (i - 1)).map Piece.token) p ∧
        err = report p (1 + newlines (textUpTo ps last i)) item := by
  have s := Cursor.sees_ofSource source
  obtain ⟨ps, last, e, d⟩ := exists_divides source.toList
  have lexed : Lexed.ofSource source = _ := d.ofChars
  rw [lexed] at s
  obtain ⟨n, closed, dd, read⟩ | ⟨err', read, f⟩ := s.parseDocument
  · constructor
    · intro parsed
      rw [Document.parse, read] at parsed
      cases parsed
    · -- All items of a document fit.
      rintro ⟨ps', last', e', i, item, p, d', least, -, -, -⟩
      obtain ⟨rfl, rfl, rfl⟩ := d.unique d'
      have v := dd.viable closed
      rw [items_numbered, ← List.take_append_drop i (items ps' e')] at v
      exact absurd v.of_append least.1
  · obtain ⟨i, item, p, least, here, at', rfl⟩ := f.exists_isLeast d
    constructor
    · intro parsed
      rw [Document.parse, read] at parsed
      cases parsed
      exact ⟨ps, last, e, i, item, p, d, least, here, at', rfl⟩
    · -- The division, the item and the place are settled by the text, and so is the report.
      rintro ⟨ps', last', e', i', item', p', d', least', here', at'', rfl⟩
      obtain ⟨rfl, rfl, rfl⟩ := d.unique d'
      obtain rfl := least'.unique least
      obtain rfl := at''.unique at'
      obtain rfl := Option.some.inj (here'.symm.trans here)
      exact read

end EnumGen
