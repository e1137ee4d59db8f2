import EnumGen.Proofs.Files.Output

/-!
# Plain directories

In a directory that holds directories and files only, a name leads to its own entry, for whatever
purpose the path is followed. So its path and this entry settle what becomes of a file that is
written there, and they settle it alike in every tree that has `Grown` from another one: in which
outputs have been written in the directory, over files or where nothing was. An input reads the same
there (`Grown.read_input`), and an output is closed to all writers or open to them as before
(`Plain.output`).
-/

namespace EnumGen.FileTree

variable {t t' : FileTree} {purpose : Purpose} {links k : Nat} {cwd dir d l : Location}
  {steps : List PathStep} {step : PathStep} {place : Place} {p : Path} {n m : Name}
  {pre last : List Char} {e : FileError}

/-! ## Following a path into a directory -/

lemma approach_alike (a : Alike t t') (into : t.approach links dir steps = some (k, d)) :
    t'.approach links dir steps = some (k, d) := by
  fun_induction approach t links dir steps with
  | case1 =>
    rw [approach]
    exact into
  | case2 _ _ _ ih | case3 _ _ _ ih | case4 _ _ _ ih =>
    rw [approach]
    exact ih into
  | case5 | case7 | case9 => cases into
  | case6 _ _ n _ short found ih =>
    rw [approach, if_neg short, (a _ .dir trivial).mp found]
    exact ih into
  | case8 _ n _ short target found _ ih =>
    rw [approach, if_neg short, (a _ (.link target) trivial).mp found]
    exact ih into

lemma directory?_alike (a : Alike t t') (into : t.directory? cwd pre = some (k, d)) :
    t'.directory? cwd pre = some (k, d) :=
  approach_alike a into

/-- Steps are continued from where they lead. -/
lemma approach_append (t : FileTree) (links : Nat) (dir : Location) (steps rest : List PathStep) :
    t.approach links dir (steps ++ rest) =
      (t.approach links dir steps).bind fun (k, d) => t.approach k d rest := by
  fun_induction approach t links dir steps with
  | case1 => rfl
  | case2 _ _ _ ih | case3 _ _ _ ih | case4 _ _ _ ih => rw [List.cons_append, approach, ih]
  | case5 _ _ n _ long =>
    rw [List.cons_append, approach, if_pos long]
    rfl
  | case6 _ _ n _ short found ih =>
    rw [List.cons_append, approach, if_neg short, found]
    exact ih
  | case7 _ n _ short target found =>
    rw [List.cons_append, approach, if_neg short, found]
    rfl
  | case8 _ n _ short target found _ ih =>
    rw [List.cons_append, approach, if_neg short, found]
    dsimp only
    rw [← List.append_assoc, ih]
  | case9 _ _ n _ short dir link =>
    rw [List.cons_append, approach, if_neg short]
    cases found : t.get? (n :: _) with
    | none => rfl
    | some e =>
      cases e with
      | dir => exact absurd found dir
      | link target => exact absurd found (link target)
      | file | fullDevice => rfl

lemma approach_append_slash (t : FileTree) (links : Nat) (dir : Location) (steps : List PathStep) :
    t.approach links dir (steps ++ [.slash]) = t.approach links dir steps := by
  have stays (k : Nat) (d : Location) : t.approach k d [.slash] = some (k, d) := by
    rw [approach, approach]
  simp only [approach_append, stays]
  exact Option.bind_fun_some _

/-- A path that leads to a directory can be continued from there. -/
lemma Leads.approach (w : Leads t .target links dir steps place) (is : place.entry = some .dir) :
    ∃ k, t.approach links dir steps = some (k, place.location) := by
  induction w with
  | @done links dir => exact ⟨links, by rw [FileTree.approach]⟩
  | here _ ih | slash _ ih | up _ ih =>
    rw [FileTree.approach]
    exact ih is
  | enter _ short found _ ih =>
    rw [FileTree.approach, if_neg (Nat.not_lt.mpr short), found]
    exact ih is
  | follow _ short found _ _ ih =>
    rw [FileTree.approach, if_neg (Nat.not_lt.mpr short), found]
    exact ih is
  | link _ _ meant => cases meant
  | last _ ends => exact absurd trivial (ends _ is)

/-- A path that is not accepted is refused everywhere, and for the same reason. -/
lemma resolve_of_not_accepted (no : ¬Accepted p) :
    ∃ e, ∀ t purpose cwd, FileTree.resolve t purpose cwd p = .error e := by
  by_cases null : p.text.toList.contains '\x00'
  · exact ⟨_, fun _ _ _ => by rw [resolve, if_pos null]⟩
  by_cases empty : p.text.isEmpty
  · exact ⟨_, fun _ _ _ => by rw [resolve, if_neg null, if_pos empty]⟩
  by_cases long : maxPathBytes ≤ p.text.utf8ByteSize
  · exact ⟨_, fun _ _ _ => by rw [resolve, if_neg null, if_neg empty, if_pos long]⟩
  · exact absurd ⟨by simpa using null, empty, Nat.not_le.mp long⟩ no

/-- An accepted path into a directory takes its last step there. -/
lemma resolve_into_step (lead : Leading pre) (piece : IsPiece last)
    (is : PathStep.ofPiece? last = some step) (accepted : Accepted (.into pre last))
    (into : t.directory? cwd pre = some (k, d)) :
    t.resolve purpose cwd (.into pre last) = t.walk purpose k d [step] := by
  have whole : t.resolve purpose cwd (.into pre last) =
      t.walk purpose maxLinks (start (.into pre last) cwd) (Path.into pre last).steps := by
    obtain ⟨null, empty, short⟩ := accepted
    rw [resolve, if_neg (by simpa using null), if_neg empty, if_neg (Nat.not_le.mpr short), ← start]
  rw [whole, start_into piece, Path.steps_into lead piece, is, Option.toList_some]
  obtain ⟨k', d', into', same⟩ | ⟨none, -⟩ :=
    walk_concat_cases purpose (PathStep.ofPiece?_ne_slash is)
  · cases into.symm.trans into'
    exact same
  · cases into.symm.trans none

/-- A name leads to its own entry, unless that is a link which is to be followed. -/
lemma walk_name (short : n.text.utf8ByteSize ≤ maxNameBytes)
    (own : purpose = .entry ∨ ∀ target, t.get? (n :: d) ≠ some (.link target)) :
    t.walk purpose links d [.name n] = .ok ⟨n :: d, t.get? (n :: d)⟩ := by
  cases found : t.get? (n :: d) with
  | none =>
    rw [walk_eq_ok_iff, ← found]
    exact .last short (by simp [found])
  | some e =>
    cases e with
    | dir =>
      rw [walk_dir not_asked_nil short found, walk, found]
    | link target =>
      obtain rfl | no := own
      · exact (Leads.link short found rfl).walk
      · exact absurd found (no target)
    | file | fullDevice =>
      rw [walk_eq_ok_iff, ← found]
      refine .last short fun e is => ?_
      cases found.symm.trans is
      exact id

/-- The path of a name in a directory is refused for its own sake, or it leads to the entry. -/
lemma resolve_into_name_cases (lead : Leading pre) (n : Name) :
    (∃ e, ∀ t purpose cwd k d, FileTree.directory? t cwd pre = some (k, d) →
        t.resolve purpose cwd (.into pre n.text.toList) = .error e) ∨
      ∀ t purpose cwd k d, FileTree.directory? t cwd pre = some (k, d) →
        (purpose = .entry ∨ ∀ target, t.get? (n :: d) ≠ some (.link target)) →
        t.resolve purpose cwd (.into pre n.text.toList) = .ok ⟨n :: d, t.get? (n :: d)⟩ := by
  have step := PathStep.ofPiece?_name n
  by_cases accepted : Accepted (.into pre n.text.toList)
  · by_cases short : n.text.utf8ByteSize ≤ maxNameBytes
    · refine .inr fun t purpose cwd k d into own => ?_
      rw [resolve_into_step lead n.isPiece step accepted into, walk_name short own]
    · refine .inl ⟨.nameTooLong, fun t purpose cwd k d into => ?_⟩
      rw [resolve_into_step lead n.isPiece step accepted into, walk, if_neg not_asked_nil,
        if_pos (Nat.not_le.mp short)]
  · obtain ⟨e, refused⟩ := resolve_of_not_accepted accepted
    exact .inl ⟨e, fun _ _ _ _ _ _ => refused _ _ _⟩

/-- The path to the directory above is refused for its own sake, or it leads there. -/
lemma resolve_into_up_cases (lead : Leading pre) :
    (∃ e, ∀ t purpose cwd k d, FileTree.directory? t cwd pre = some (k, d) →
        t.resolve purpose cwd (.into pre ['.', '.']) = .error e) ∨
      ∀ t purpose cwd k d, FileTree.directory? t cwd pre = some (k, d) →
        t.resolve purpose cwd (.into pre ['.', '.']) = .ok ⟨d.tail, t.get? d.tail⟩ := by
  have up : PathStep.ofPiece? ['.', '.'] = some .up := rfl
  by_cases accepted : Accepted (.into pre ['.', '.'])
  · refine .inr fun t purpose cwd k d into => ?_
    rw [resolve_into_step lead (by decide) up accepted into, walk, walk]
  · obtain ⟨e, refused⟩ := resolve_of_not_accepted accepted
    exact .inl ⟨e, fun _ _ _ _ _ _ => refused _ _ _⟩

/-! ## Files that can be written and files that cannot -/

/-- Nothing can be written to the path, and what it names withstands a removal. -/
def Closed (t : FileTree) (cwd : Location) (p : Path) (e : FileError) : Prop :=
  (∀ content, t.write cwd p content = (.error e, t)) ∧ t.remove cwd p = t

lemma closed_of_error (r : ∀ purpose, t.resolve purpose cwd p = .error e) : t.Closed cwd p e := by
  refine ⟨fun content => ?_, ?_⟩
  · rw [write, r]
  · rw [remove, r]

lemma closed_of_dir (r : ∀ purpose, t.resolve purpose cwd p = .ok ⟨l, some .dir⟩) :
    t.Closed cwd p .isDirectory := by
  refine ⟨fun content => ?_, ?_⟩
  · rw [write, r]
  · rw [remove, r]

lemma write_of_free (r : t.resolve .writing cwd p = .ok ⟨l, t.get? l⟩) (free : t.Free l)
    (content : ByteArray) : t.write cwd p content = (.ok (), t.put l (.file content)) := by
  rw [write, r]
  obtain none | ⟨old, file⟩ := free
  · rw [none]
  · rw [file]

/-! ## Outputs in a plain directory -/

/-- There are only directories and files in the directory, and it stands in a directory. -/
structure Plain (t : FileTree) (d : Location) : Prop where
  entries : ∀ n e, t.get? (n :: d) = some e → e = .dir ∨ ∃ content, e = .file content
  above : t.get? d.tail = some .dir

lemma Plain.not_link (plain : t.Plain d) (n : Name) (target : Path) :
    t.get? (n :: d) ≠ some (.link target) := by
  intro found
  obtain is | ⟨content, is⟩ := plain.entries n _ found <;> cases is

/-- Files have been written in the directory that are no inputs, over files or where nothing was. -/
def Grown (d : Location) (t t' : FileTree) : Prop :=
  ∀ l, t'.get? l = t.get? l ∨ ∃ n content, l = n :: d ∧ ¬inputExtension <:+ n.text.toList ∧
    t.Free l ∧ t'.get? l = some (.file content)

lemma Grown.refl (d : Location) (t : FileTree) : Grown d t t :=
  fun _ => .inl rfl

lemma Grown.put (g : Grown d t t') (other : ¬inputExtension <:+ n.text.toList)
    (free : t'.Free (n :: d)) (content : ByteArray) :
    Grown d t (t'.put (n :: d) (.file content)) := by
  intro l
  by_cases is : l = n :: d
  · subst is
    refine .inr ⟨n, content, rfl, other, ?_, get?_put_self (List.cons_ne_nil _ _) _⟩
    obtain same | ⟨_, _, -, -, free', -⟩ := g (n :: d)
    · rwa [Free, ← same]
    · exact free'
  · rw [get?_put_of_ne is]
    exact g l

lemma Grown.free (g : Grown d t t') (free : t.Free l) : t'.Free l := by
  obtain same | ⟨_, content, -, -, -, file⟩ := g l
  · rwa [Free, same]
  · exact .inr ⟨content, file⟩

lemma Grown.alike (g : Grown d t t') : Alike t t' := by
  intro l e passage
  obtain same | ⟨_, content, -, -, free, file⟩ := g l
  · rw [same]
  · constructor <;> intro found
    · exact absurd passage (free.not_isPassage found)
    · cases file.symm.trans found
      cases passage

/-- Inputs are as they were. -/
lemma Grown.get?_input (g : Grown d t t') (input : inputExtension <:+ n.text.toList)
    (dir : Location) :
    t'.get? (n :: dir) = t.get? (n :: dir) := by
  obtain same | ⟨_, _, is, other, -, -⟩ := g (n :: dir)
  · exact same
  · cases is
    exact absurd input other

lemma Grown.plain (g : Grown d t t') (plain : t.Plain d) : t'.Plain d := by
  constructor
  · intro n e found
    obtain same | ⟨_, content, -, -, -, file⟩ := g (n :: d)
    · exact plain.entries n e (same.symm.trans found)
    · cases file.symm.trans found
      exact .inr ⟨content, rfl⟩
  · exact (g.alike _ .dir trivial).mp plain.above

/-- An output in a plain directory is closed to every writer, or it is open to every writer, now and
after further outputs. -/
lemma Plain.output (plain : t.Plain d) (lead : Leading pre)
    (into : t.directory? cwd pre = some (k, d)) (input : inputExtension <:+ n.text.toList) :
    (∃ e, ∀ t', Grown d t t' → t'.Closed cwd (Path.into pre n.text.toList).output e) ∨
      ∃ m : Name, ¬inputExtension <:+ m.text.toList ∧ ∀ t', Grown d t t' → t'.Free (m :: d) ∧
        ∀ content, t'.write cwd (Path.into pre n.text.toList).output content =
          (.ok (), t'.put (m :: d) (.file content)) := by
  obtain ⟨stem, is⟩ := input
  have name := n.isName
  have noSlash : '/' ∉ stem := by
    obtain ⟨-, -, -, no, -⟩ := name
    rw [← is, List.mem_append, not_or] at no
    exact no.1
  rw [← is] at name
  rw [← is, Path.output_into lead noSlash]
  by_cases dot : stem = ['.']
  · -- the output of `..enum` is the directory above
    subst dot
    left
    obtain ⟨e, refused⟩ | leads := resolve_into_up_cases lead
    · refine ⟨e, fun t' g => closed_of_error fun purpose => ?_⟩
      exact refused t' _ _ _ _ (directory?_alike g.alike into)
    · refine ⟨.isDirectory, fun t' g => closed_of_dir (l := d.tail) fun purpose => ?_⟩
      have up := leads t' purpose _ _ _ (directory?_alike g.alike into)
      rwa [(g.plain plain).above] at up
  · obtain ⟨m, is'⟩ := Name.exists_of_isName (isName_outputPiece name dot)
    have other : ¬inputExtension <:+ m.text.toList := by
      rintro ⟨b, same⟩
      exact outputPiece_ne_input stem b (is'.symm.trans same.symm)
    rw [← is']
    obtain ⟨e, refused⟩ | leads := resolve_into_name_cases lead m
    · refine .inl ⟨e, fun t' g => closed_of_error fun purpose => ?_⟩
      exact refused t' _ _ _ _ (directory?_alike g.alike into)
    · have site (t') (g : Grown d t t') (purpose : Purpose) :=
        leads t' purpose _ _ _ (directory?_alike g.alike into) (.inr ((g.plain plain).not_link m))
      cases found : t.get? (m :: d) with
      | none =>
        refine .inr ⟨m, other, fun t' g => ?_⟩
        have free := g.free (.inl found)
        exact ⟨free, write_of_free (site t' g .writing) free⟩
      | some e =>
        obtain rfl | ⟨content, rfl⟩ := plain.entries m e found
        · refine .inl ⟨.isDirectory, fun t' g => closed_of_dir (l := m :: d) fun purpose => ?_⟩
          rw [site t' g purpose, (g.alike _ .dir trivial).mp found]
        · refine .inr ⟨m, other, fun t' g => ?_⟩
          have free := g.free (.inr ⟨content, found⟩)
          exact ⟨free, write_of_free (site t' g .writing) free⟩

end EnumGen.FileTree
