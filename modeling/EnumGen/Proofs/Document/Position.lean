import EnumGen.Proofs.Document.Grammar
import EnumGen.Proofs.Token.Division

/-!
# Places in the grammar

What may stand at the start of a document, and which place in the grammar it leads to. An `Item` is
a token or one of the two things that may stand behind the last one. Items are `Viable` if a
document, with the end of the input behind it, starts with them. `Reaches` tells the place that
tokens lead to by what has been derived up to there.

A place is the state of an automaton: `Position.next?` says which kinds of tokens may follow. Every
document is a run of it (`DocumentNode.Derives.run`), and tokens that reach a place are a run that
ends there (`Reaches.run`). Hence a place is unique (`Reaches.unique`), tokens that reach one are
viable (`Reaches.viable`), and they are not with a further item that may not follow
(`Reaches.not_viable`).
-/

namespace EnumGen.Grammar

/-! ## Items -/

/-- What a text is read as: tokens, and behind the last one its end or a failure. -/
inductive Item
  | token (t : Token)
  | eof
  /-- the text ends inside a comment or a tag -/
  | failure
  deriving DecidableEq, Repr

/-- What stands behind the last token of a text. -/
def Item.ofEnding : Ending → Item
  | .closed => .eof
  | .cut => .failure

/-- A document with the end of the input behind it starts with the items. -/
def Viable (is : List Item) : Prop :=
  ∃ d ts, DocumentNode.Derives d ts ∧ is <+: ts.map Item.token ++ [.eof]

lemma Viable.of_append {is js : List Item} (v : Viable (is ++ js)) : Viable is := by
  obtain ⟨d, ts, dd, pre⟩ := v
  exact ⟨d, ts, dd, (List.prefix_append is js).trans pre⟩

/-! ## Places -/

/-- A place in the grammar. -/
inductive Position
  | start
  /-- behind `package` -/
  | packageName
  /-- where a definition may start -/
  | outside
  /-- behind `type` -/
  | typeName
  /-- behind the name of an enum type -/
  | enumWord
  /-- behind `enum` -/
  | base
  /-- behind an integer type -/
  | brace
  /-- where a member may start, and no tag may stand -/
  | inside
  /-- behind the name of a member, where a tag may stand -/
  | named
  deriving DecidableEq, Repr

namespace Position

/-- The place behind a token of the given kind, if the token may stand here. -/
def next? : Position → TokenKind → Option Position
  | start, .package => some packageName
  | packageName, .ident => some outside
  | outside, .type => some typeName
  | typeName, .ident => some enumWord
  | enumWord, .enum => some base
  | base, .lbrace => some inside
  | base, .int _ => some brace
  | brace, .lbrace => some inside
  | inside, .ident => some named
  | inside, .rbrace => some outside
  | named, .ident => some named
  | named, .tag => some inside
  | named, .rbrace => some outside
  | _, _ => none

/-- The place behind tokens that may stand here. -/
def run? (p : Position) (ts : List Token) : Option Position :=
  ts.foldlM (fun p t => p.next? t.kind) p

/-- What a diagnostic names as expected where the item stands instead. -/
def expected (p : Position) (i : Item) : String :=
  match p with
  | start => "'package'"
  | packageName | typeName => "identifier"
  | outside => "'type'"
  | enumWord => "'enum'"
  | base => "'\x7b' or <int-type>"
  | brace => "'\x7b'"
  | inside | named => if i = .eof then "'\x7d'" else "identifier"

/-- The item may not stand here. -/
def Refuses (p : Position) : Item → Prop
  | .token t => p.next? t.kind = none
  | .eof => p ≠ outside
  | .failure => True

end Position

/-- The place behind a member. -/
def MemberNode.position (m : MemberNode) : Position :=
  if m.tag.isSome then .inside else .named

/-- The place behind members of which none may be left. -/
def bodyPosition (ms : List MemberNode) : Position :=
  ms.foldl (fun _ m => m.position) .inside

/-- The tokens lead from the start of a document to the place. -/
inductive Reaches : List Token → Position → Prop
  | start : Reaches [] .start
  | packageName {l} : Reaches [⟨.package, l⟩] .packageName
  | outside {d u} : DocumentNode.Derives d u → Reaches u .outside
  | typeName {d u l} : DocumentNode.Derives d u → Reaches (u ++ [⟨.type, l⟩]) .typeName
  | enumWord {d u l n} : DocumentNode.Derives d u →
    Reaches (u ++ [⟨.type, l⟩, ⟨.ident, n⟩]) .enumWord
  | base {d u l n l'} : DocumentNode.Derives d u →
    Reaches (u ++ [⟨.type, l⟩, ⟨.ident, n⟩, ⟨.enum, l'⟩]) .base
  | brace {d u l n l' t k} : DocumentNode.Derives d u →
    Reaches (u ++ [⟨.type, l⟩, ⟨.ident, n⟩, ⟨.enum, l'⟩, ⟨.int t, k⟩]) .brace
  | body {d u l n l' b v ms w} : DocumentNode.Derives d u → BaseNode.Derives b v →
    Star MemberNode.Derives ms w →
    Reaches (u ++ (⟨.type, l⟩ :: ⟨.ident, n⟩ :: ⟨.enum, l'⟩ :: (v ++ w))) (bodyPosition ms)

/-! ## Documents are runs -/

lemma run?_append (p : Position) (u v : List Token) :
    p.run? (u ++ v) = (p.run? u).bind (·.run? v) :=
  List.foldlM_append

lemma run?_cons (p : Position) (t : Token) (ts : List Token) :
    p.run? (t :: ts) = (p.next? t.kind).bind (·.run? ts) :=
  rfl

/-- A place inside the braces of an enum type. -/
def Position.IsInside (p : Position) : Prop :=
  p = .inside ∨ p = .named

lemma MemberNode.position_isInside (m : MemberNode) : m.position.IsInside := by
  unfold MemberNode.position
  split
  · exact .inl rfl
  · exact .inr rfl

lemma foldl_position_isInside {p : Position} (ms : List MemberNode) (ip : p.IsInside) :
    (ms.foldl (fun _ m => m.position) p).IsInside := by
  induction ms generalizing p with
  | nil => exact ip
  | cons m ms ih => exact ih m.position_isInside

lemma BaseNode.Derives.run {b : BaseNode} {v} (db : b.Derives v) :
    Position.base.run? v = some .inside := by
  cases db <;> rfl

lemma MemberNode.Derives.run {m : MemberNode} {p : Position} {u} (dm : m.Derives u) (ip : p.IsInside) :
    p.run? u = some m.position := by
  obtain rfl | rfl := ip <;> cases dm <;> rfl

lemma Star.run_members {ms w p} (sm : Star MemberNode.Derives ms w) (ip : p.IsInside) :
    p.run? w = some (ms.foldl (fun _ m => m.position) p) := by
  induction sm generalizing p with
  | nil => rfl
  | @cons m ms u v dm _ ih =>
    rw [run?_append, dm.run ip]
    exact ih m.position_isInside

lemma EnumNode.Derives.run {e : EnumNode} {u} (de : e.Derives u) :
    Position.outside.run? u = some .outside := by
  cases de with
  | @mk n b ms v w l l' l'' db sm =>
    show Position.base.run? (v ++ (w ++ [⟨.rbrace, l''⟩])) = some .outside
    rw [run?_append, db.run]
    show Position.inside.run? (w ++ [⟨.rbrace, l''⟩]) = some .outside
    rw [run?_append, sm.run_members (.inl rfl)]
    obtain e | e := foldl_position_isInside ms (.inl rfl) <;> (rw [e]; rfl)

lemma Star.run_enums {es u} (se : Star EnumNode.Derives es u) :
    Position.outside.run? u = some .outside := by
  induction se with
  | nil => rfl
  | cons de _ ih =>
    rw [run?_append, de.run]
    exact ih

lemma DocumentNode.Derives.run {d : DocumentNode} {ts} (dd : d.Derives ts) :
    Position.start.run? ts = some .outside := by
  cases dd with
  | mk se => exact se.run_enums

/-- Tokens that lead to a place are a run that ends there. -/
lemma Reaches.run {u p} (r : Reaches u p) : Position.start.run? u = some p := by
  cases r with
  | start | packageName => rfl
  | outside dd => exact dd.run
  | typeName dd | enumWord dd | base dd | brace dd =>
    rw [run?_append, dd.run]
    rfl
  | @body d u l n l' b v ms w dd db sm =>
    rw [run?_append, dd.run]
    show Position.base.run? (v ++ w) = some (bodyPosition ms)
    rw [run?_append, db.run]
    exact sm.run_members (.inl rfl)

/-- Tokens lead to one place only. -/
lemma Reaches.unique {u p p'} (r : Reaches u p) (r' : Reaches u p') : p = p' :=
  Option.some.inj (r.run.symm.trans r'.run)

/-! ## What may follow -/

/-- From every place a document can be completed. -/
lemma Reaches.completes {u p} (r : Reaches u p) : ∃ d v, DocumentNode.Derives d (u ++ v) := by
  have close {d u} (dd : DocumentNode.Derives d u) (n : String) {b v} (db : BaseNode.Derives b v)
      (l l' : String) {ms w} (sm : Star MemberNode.Derives ms w) :
      (d.push ⟨n, b, ms⟩).Derives (u ++ (⟨.type, l⟩ :: ⟨.ident, n⟩ :: ⟨.enum, l'⟩ ::
        (v ++ (w ++ [⟨.rbrace, ""⟩])))) :=
    dd.push (.mk db sm)
  have brace : BaseNode.Derives .omitted [⟨.lbrace, ""⟩] := .omitted
  cases r with
  | start => exact ⟨⟨"", []⟩, [⟨.package, ""⟩, ⟨.ident, ""⟩], .mk .nil⟩
  | packageName => exact ⟨⟨"", []⟩, [⟨.ident, ""⟩], .mk .nil⟩
  | outside dd => exact ⟨_, [], by simpa using dd⟩
  | @typeName d u l dd =>
    refine ⟨d.push ⟨"", .omitted, []⟩,
      [⟨.ident, ""⟩, ⟨.enum, ""⟩, ⟨.lbrace, ""⟩, ⟨.rbrace, ""⟩], ?_⟩
    simpa using close dd "" brace l "" .nil
  | @enumWord d u l n dd =>
    refine ⟨d.push ⟨n, .omitted, []⟩, [⟨.enum, ""⟩, ⟨.lbrace, ""⟩, ⟨.rbrace, ""⟩], ?_⟩
    simpa using close dd n brace l "" .nil
  | @base d u l n l' dd =>
    refine ⟨d.push ⟨n, .omitted, []⟩, [⟨.lbrace, ""⟩, ⟨.rbrace, ""⟩], ?_⟩
    simpa using close dd n brace l l' .nil
  | @brace d u l n l' t k dd =>
    refine ⟨d.push ⟨n, .named t, []⟩, [⟨.lbrace, ""⟩, ⟨.rbrace, ""⟩], ?_⟩
    have named : BaseNode.Derives (.named t) [⟨.int t, k⟩, ⟨.lbrace, ""⟩] := .named
    simpa using close dd n named l l' .nil
  | @body d u l n l' b v ms w dd db sm =>
    refine ⟨d.push ⟨n, b, ms⟩, [⟨.rbrace, ""⟩], ?_⟩
    simpa using close dd n db l l' sm

/-- Tokens that lead to a place are the start of a document. -/
lemma Reaches.viable {u p} (r : Reaches u p) : Viable (u.map .token) := by
  obtain ⟨d, v, dd⟩ := r.completes
  refine ⟨d, _, dd, ?_⟩
  rw [List.map_append, List.append_assoc]
  exact List.prefix_append _ _

/-- Behind tokens that start a document stands the end of the input or one more of its tokens. -/
lemma items_cases {u ts : List Token} {i : Item} {is : List Item}
    (e : u.map .token ++ i :: is = ts.map .token ++ [.eof]) :
    (i = .eof ∧ ts = u) ∨ ∃ t v, i = .token t ∧ ts = u ++ t :: v := by
  induction u generalizing ts with
  | nil =>
    cases ts with
    | nil =>
      injection e with ei _
      exact .inl ⟨ei, rfl⟩
    | cons t v =>
      injection e with ei _
      exact .inr ⟨t, v, ei, rfl⟩
  | cons a u ih =>
    cases ts with
    | nil => cases e
    | cons b ts =>
      injection e with eb e
      cases eb
      obtain ⟨ei, rfl⟩ | ⟨t, v, ei, rfl⟩ := ih e
      · exact .inl ⟨ei, rfl⟩
      · exact .inr ⟨t, v, ei, rfl⟩

/-- With an item that is refused, tokens are not the start of a document. -/
lemma Reaches.not_viable {u p i} (r : Reaches u p) (no : p.Refuses i) :
    ¬Viable (u.map .token ++ [i]) := by
  rintro ⟨d, ts, dd, is, e⟩
  rw [List.append_assoc, List.singleton_append] at e
  -- A document that went on with the item would be a run through a place that refuses it.
  obtain ⟨rfl, rfl⟩ | ⟨t, v, rfl, rfl⟩ := items_cases e
  · exact no (r.unique (.outside dd))
  · have run := dd.run
    have stop : p.next? t.kind = none := no
    rw [run?_append, r.run] at run
    change p.run? (t :: v) = some .outside at run
    rw [run?_cons, stop] at run
    cases run

end EnumGen.Grammar
