import EnumGen.Proofs.Files.Effects

/-!
# Paths into one directory

Paths that differ in their last names only are followed alike up to these names, into one
directory (`walk_concat`). Each leads to its own entry there, unless that is a link
(`location?_into_name`).
-/

namespace EnumGen

/-- The text can stand in front of a name: it is empty, or it ends in a slash. -/
def Leading (pre : List Char) : Prop :=
  pre = [] ∨ pre.getLast? = some '/'

/-- The text can stand between slashes. -/
def IsPiece (last : List Char) : Prop :=
  last ≠ [] ∧ '/' ∉ last

instance (last : List Char) : Decidable (IsPiece last) :=
  inferInstanceAs (Decidable (_ ∧ _))

/-- The path of a last piece behind a text. -/
def Path.into (pre last : List Char) : Path :=
  ⟨String.ofList (pre ++ last)⟩

/-! ## The steps of such a path -/

lemma splitSlashes_ne_nil (s : List Char) : splitSlashes s ≠ [] := by
  cases s with
  | nil => exact List.cons_ne_nil _ _
  | cons c s =>
    rw [splitSlashes]
    split
    · exact List.cons_ne_nil _ _
    · split <;> exact List.cons_ne_nil _ _

lemma splitSlashes_of_not_mem {s : List Char} (no : '/' ∉ s) : splitSlashes s = [s] := by
  induction s with
  | nil => rfl
  | cons c s ih =>
    rw [List.mem_cons, not_or] at no
    rw [splitSlashes, if_neg (Ne.symm no.1), ih no.2]

lemma splitSlashes_append (s t : List Char) :
    splitSlashes (s ++ '/' :: t) = splitSlashes s ++ splitSlashes t := by
  induction s with
  | nil => rfl
  | cons c s ih =>
    rw [List.cons_append, splitSlashes, splitSlashes]
    split
    · rw [ih, List.cons_append]
    · rw [ih]
      cases split : splitSlashes s with
      | nil => exact absurd split (splitSlashes_ne_nil s)
      | cons p ps => rfl

/-- The steps that a text in front of a name takes. -/
def stepsOf (pre : List Char) : List PathStep :=
  (splitSlashes pre).filterMap PathStep.ofPiece?

lemma stepsOf_append (s s' : List Char) : stepsOf (s ++ '/' :: s') = stepsOf s ++ stepsOf s' := by
  rw [stepsOf, splitSlashes_append, List.filterMap_append]
  rfl

variable {pre last : List Char}

/-- A piece behind a text takes its own step. -/
lemma stepsOf_into (lead : Leading pre) (no : '/' ∉ last) :
    stepsOf (pre ++ last) = stepsOf pre ++ (PathStep.ofPiece? last).toList := by
  have single : stepsOf last = (PathStep.ofPiece? last).toList := by
    rw [stepsOf, splitSlashes_of_not_mem no, List.filterMap_cons, List.filterMap_nil]
    cases PathStep.ofPiece? last <;> rfl
  obtain rfl | ends := lead
  · rw [List.nil_append, single]
    rfl
  · obtain ⟨body, rfl⟩ := List.getLast?_eq_some_iff.mp ends
    have none : stepsOf [] = [] := rfl
    rw [List.append_assoc, List.singleton_append, stepsOf_append, stepsOf_append, single, none,
      List.append_nil]

lemma Path.steps_into (lead : Leading pre) (piece : IsPiece last) :
    (Path.into pre last).steps = stepsOf pre ++ (PathStep.ofPiece? last).toList := by
  have noSlash : ¬(Path.into pre last).endsInSlash := by
    rw [Path.endsInSlash, Path.into, String.toList_ofList, decide_eq_true_eq, List.getLast?_append,
      List.getLast?_eq_some_getLast piece.1, Option.some_or, Option.some_inj]
    intro ends
    exact piece.2 (ends ▸ List.getLast_mem piece.1)
  rw [Path.steps, if_neg noSlash, List.append_nil, Path.into, String.toList_ofList, ← stepsOf,
    stepsOf_into lead piece.2]

lemma Path.isAbsolute_into (piece : IsPiece last) :
    (Path.into pre last).isAbsolute = decide (pre.head? = some '/') := by
  rw [Path.isAbsolute, Path.into, String.toList_ofList]
  cases pre with
  | cons c pre => rfl
  | nil =>
    obtain ⟨c, s, rfl⟩ := List.exists_cons_of_ne_nil piece.1
    have ne : c ≠ '/' := by
      rintro rfl
      exact piece.2 List.mem_cons_self
    simpa using ne

lemma Name.isPiece (n : Name) : IsPiece n.text.toList :=
  ⟨n.isName.1, n.isName.2.2.2.1⟩

lemma Name.exists_of_isName {s : List Char} (name : IsName s) : ∃ n : Name, n.text.toList = s :=
  ⟨⟨String.ofList s, by rwa [String.toList_ofList]⟩, String.toList_ofList⟩

lemma PathStep.ofPiece?_name (n : Name) : PathStep.ofPiece? n.text.toList = some (.name n) := by
  obtain ⟨nonempty, here, up, -⟩ := n.isName
  rw [PathStep.ofPiece?]
  · rw [Name.ofChars?, dif_pos n.isName, Option.map_some]
    simp
  all_goals assumption

/-- The steps of pieces are never slashes, which are for the end of a path. -/
lemma PathStep.ofPiece?_ne_slash {piece : List Char} {step : PathStep}
    (is : ofPiece? piece = some step) : step ≠ .slash := by
  rintro rfl
  rw [ofPiece?.eq_def] at is
  split at is
  · cases is
  · cases is
  · cases is
  · rw [Name.ofChars?] at is
    split at is <;> cases is

/-! ## The directory that they lead into -/

namespace FileTree

variable {t : FileTree} {purpose : Purpose} {links : Nat} {cwd dir l : Location}
  {steps : List PathStep} {step : PathStep} {place : Place} {n : Name}

/-- Where steps lead if another one follows, and how many links can still be followed there. -/
def approach (t : FileTree) (links : Nat) (dir : Location) (steps : List PathStep) :
    Option (Nat × Location) :=
  match steps with
  | [] => some (links, dir)
  | .here :: rest | .slash :: rest => approach t links dir rest
  | .up :: rest => approach t links dir.tail rest
  | .name n :: rest =>
    if maxNameBytes < n.text.utf8ByteSize then none
    else
      match t.get? (n :: dir) with
      | some .dir => approach t links (n :: dir) rest
      | some (.link target) =>
        match links with
        | 0 => none
        | links + 1 => approach t links (start target dir) (target.steps ++ rest)
      | _ => none
termination_by (links, steps.length)

/-- The last step is taken from where the ones before it lead, if they lead somewhere. -/
lemma walk_concat_cases (purpose : Purpose) (ne : step ≠ .slash) :
    (∃ k d, t.approach links dir steps = some (k, d) ∧
        t.walk purpose links dir (steps ++ [step]) = t.walk purpose k d [step]) ∨
      t.approach links dir steps = none ∧
        ∃ e, t.walk purpose links dir (steps ++ [step]) = .error e := by
  -- with another step to come, no branch for the end of a path applies
  have goesOn (rest : List PathStep) : rest ++ [step] ≠ [] := by simp
  have asked (rest : List PathStep) : ¬(purpose = .writing ∧ rest ++ [step] = [.slash]) := by
    rintro ⟨-, last⟩
    cases rest with
    | nil => exact ne (List.cons.inj last).1
    | cons => simp at last
  fun_induction approach t links dir steps with
  | case1 => exact .inl ⟨_, _, rfl, rfl⟩
  | case2 _ _ _ ih | case3 _ _ _ ih | case4 _ _ _ ih =>
    rw [List.cons_append, walk]
    exact ih
  | case5 _ _ n rest long =>
    rw [List.cons_append, walk, if_neg (asked rest), if_pos long]
    exact .inr ⟨rfl, _, rfl⟩
  | case6 _ _ n rest short found ih =>
    rw [List.cons_append, walk_dir (asked rest) (Nat.not_lt.mp short) found]
    exact ih
  | case7 _ n rest short target found =>
    rw [List.cons_append, walk, if_neg (asked rest), if_neg short, found]
    dsimp only
    rw [if_neg fun last => goesOn rest last.1]
    exact .inr ⟨rfl, _, rfl⟩
  | case8 _ n rest short target found _ ih =>
    rw [List.cons_append, walk_link (asked rest) (Nat.not_lt.mp short) found
      (fun last => goesOn rest last.1), ← List.append_assoc]
    exact ih
  | case9 _ _ n rest short dir link =>
    rw [List.cons_append, walk, if_neg (asked rest), if_neg short]
    right
    cases found : t.get? (n :: _) with
    | none =>
      dsimp only
      rw [if_neg (goesOn rest)]
      exact ⟨rfl, _, rfl⟩
    | some e =>
      cases e with
      | dir => exact absurd found dir
      | link target => exact absurd found (link target)
      | file | fullDevice =>
        dsimp only
        rw [if_neg (goesOn rest)]
        exact ⟨rfl, _, rfl⟩

lemma walk_concat (ne : step ≠ .slash) :
    t.walk purpose links dir (steps ++ [step]) = .ok place ↔
      ∃ k d, t.approach links dir steps = some (k, d) ∧ t.walk purpose k d [step] = .ok place := by
  obtain ⟨k, d, into, same⟩ | ⟨into, e, fails⟩ := walk_concat_cases purpose ne
  · rw [same, into]
    constructor
    · intro w
      exact ⟨k, d, rfl, w⟩
    · rintro ⟨_, _, here, w⟩
      cases here
      exact w
  · rw [fails, into]
    simp

/-- The directory that all paths with the same text in front of their last name lead into, and how
many links can still be followed there. -/
def directory? (t : FileTree) (cwd : Location) (pre : List Char) : Option (Nat × Location) :=
  t.approach maxLinks (if pre.head? = some '/' then [] else cwd) (stepsOf pre)

lemma start_into (piece : IsPiece last) (cwd : Location) :
    start (.into pre last) cwd = if pre.head? = some '/' then [] else cwd := by
  rw [start, Path.isAbsolute_into piece]
  simp

lemma resolve_into (lead : Leading pre) (piece : IsPiece last)
    (is : PathStep.ofPiece? last = some step) :
    t.resolve purpose cwd (.into pre last) = .ok place ↔
      Accepted (.into pre last) ∧
        ∃ k d, t.directory? cwd pre = some (k, d) ∧ Leads t purpose k d [step] place := by
  have steps : (Path.into pre last).steps = stepsOf pre ++ [step] := by
    rw [Path.steps_into lead piece, is, Option.toList_some]
  rw [resolve_eq_ok_iff, ← walk_eq_ok_iff, steps, start_into piece,
    walk_concat (PathStep.ofPiece?_ne_slash is), directory?]
  simp only [walk_eq_ok_iff]

/-- Whatever a name leads to, it names its own entry, and it leads to this unless that is a link. -/
lemma Leads.names (w : Leads t .target links dir [.name n] place) :
    Leads t .entry links dir [.name n] ⟨n :: dir, t.get? (n :: dir)⟩ ∧
      ((∀ target, t.get? (n :: dir) ≠ some (.link target)) → place.location = n :: dir) := by
  cases w with
  | enter _ short found on =>
    cases on
    exact ⟨.enter nofun short found .done, fun _ => rfl⟩
  | follow _ short found =>
    rw [found]
    exact ⟨.link short found rfl, fun no => absurd rfl (no _)⟩
  | link _ _ meant => cases meant
  | last short ends => exact ⟨.last short ends, fun _ => rfl⟩

/-- A name leads to its own entry of the directory, or beyond it if that is a link. -/
lemma location?_into_name (lead : Leading pre)
    (leads : t.location? cwd (.into pre n.text.toList) = some l) :
    ∃ k d, t.directory? cwd pre = some (k, d) ∧
      t.resolve .entry cwd (.into pre n.text.toList) = .ok ⟨n :: d, t.get? (n :: d)⟩ ∧
      ((∀ target, t.get? (n :: d) ≠ some (.link target)) → l = n :: d) := by
  have is := PathStep.ofPiece?_name n
  rw [location?_eq_some_iff, resolve_into lead n.isPiece is] at leads
  obtain ⟨accepted, k, d, into, w⟩ := leads
  refine ⟨k, d, into, ?_, w.names.2⟩
  rw [resolve_into lead n.isPiece is]
  exact ⟨accepted, k, d, into, w.names.1⟩

lemma location?_into_up (lead : Leading pre)
    (leads : t.location? cwd (.into pre ['.', '.']) = some l) :
    ∃ k d, t.directory? cwd pre = some (k, d) ∧ l = d.tail := by
  have is : PathStep.ofPiece? ['.', '.'] = some .up := rfl
  rw [location?_eq_some_iff, resolve_into lead (by decide) is] at leads
  obtain ⟨-, k, d, into, w⟩ := leads
  refine ⟨k, d, into, ?_⟩
  cases w with
  | up on =>
    cases on
    rfl

/-- A name alone leads to a free place in the current directory. -/
lemma resolve_name (short : n.text.utf8ByteSize ≤ maxNameBytes) (free : t.Free (n :: cwd)) :
    t.resolve purpose cwd ⟨n.text⟩ = .ok ⟨n :: cwd, t.get? (n :: cwd)⟩ := by
  have into : (⟨n.text⟩ : Path) = .into [] n.text.toList := by
    rw [Path.into, List.nil_append, String.ofList_toList]
  have here : t.directory? cwd [] = some (maxLinks, cwd) := by
    rw [directory?, stepsOf, splitSlashes]
    exact approach.eq_def ..
  have accepted : Accepted ⟨n.text⟩ := by
    refine ⟨n.isName.2.2.2.2, ?_, Nat.lt_of_le_of_lt short (by decide)⟩
    intro empty
    have none : n.text = "" := String.isEmpty_iff.mp empty
    exact n.isName.1 (by rw [none]; rfl)
  rw [into] at accepted ⊢
  rw [resolve_into (.inl rfl) n.isPiece (PathStep.ofPiece?_name n)]
  exact ⟨accepted, _, _, here, .last short fun _ => free.not_isPassage⟩

lemma read_name {bytes : ByteArray} (short : n.text.utf8ByteSize ≤ maxNameBytes)
    (found : t.get? (n :: cwd) = some (.file bytes)) : t.read cwd ⟨n.text⟩ = .ok bytes := by
  rw [read, resolve_name short (.inr ⟨bytes, found⟩), found]

lemma read_put_name {bytes : ByteArray} (short : n.text.utf8ByteSize ≤ maxNameBytes) :
    (t.put (n :: cwd) (.file bytes)).read cwd ⟨n.text⟩ = .ok bytes :=
  read_name short (get?_put_self (List.cons_ne_nil _ _) _)

end FileTree

end EnumGen
