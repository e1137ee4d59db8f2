import EnumGen.Proofs.Generate.Search

/-!
# How a directory is spelled

The path to the inputs is put together piece by piece (`Path.spelled`). It leads to the directory that
was asked for (`directory?_spelled`), and it grows with every piece (`Fits.size_le`), unless the path
is `Stray`: behind a dot that is not spelled out, an empty piece leaves nothing to follow.
-/

namespace EnumGen

/-! ## The pieces of a path -/

lemma splitSlashes_cons {c : Char} (ne : c ≠ '/') (s : List Char) :
    ∃ p ps, splitSlashes s = p :: ps ∧ splitSlashes (c :: s) = (c :: p) :: ps := by
  obtain ⟨p, ps, split⟩ := List.exists_cons_of_ne_nil (splitSlashes_ne_nil s)
  exact ⟨p, ps, split, by rw [splitSlashes, if_neg ne, split]⟩

lemma slash_not_mem_splitSlashes (s : List Char) : ∀ piece ∈ splitSlashes s, '/' ∉ piece := by
  induction s with
  | nil => simp [splitSlashes]
  | cons c s ih =>
    by_cases slash : c = '/'
    · rw [splitSlashes, if_pos slash]
      exact List.forall_mem_cons.mpr ⟨List.not_mem_nil, ih⟩
    · obtain ⟨p, ps, split, split'⟩ := splitSlashes_cons slash s
      rw [split, List.forall_mem_cons] at ih
      rw [split', List.forall_mem_cons]
      exact ⟨List.not_mem_cons_of_ne_of_not_mem (Ne.symm slash) ih.1, ih.2⟩

namespace Path

/-- Where the pieces of a path start. -/
def root (dir : Path) : Path :=
  if dir.isAbsolute then ⟨"/"⟩ else .here

/-- A directory as it is spelled in front of its entries. -/
def spelled (dir : Path) : Path :=
  dir.pieces.foldl entry dir.root

/-- The path starts with a dot, or some of them, and has an empty piece right behind. -/
def Stray (dir : Path) : Prop :=
  ¬dir.isAbsolute ∧ (dir.pieces.dropWhile (· = ".")).head? = some ""

instance (dir : Path) : Decidable dir.Stray :=
  inferInstanceAs (Decidable (_ ∧ _))

/-- The pieces can be put behind the path one after the other. -/
structure Fits (p : Path) (pieces : List String) : Prop where
  nonempty : p.text ≠ ""
  slashless : ∀ piece ∈ pieces, '/' ∉ piece.toList
  here : p = .here → (pieces.dropWhile (· = ".")).head? ≠ some ""

variable {p dir : Path} {piece : String} {pieces : List String}

/-- A path is extended at its end, unless it is that of the current directory. -/
lemma entry_text (some_ : p.text ≠ "") (slashless : '/' ∉ piece.toList) (elsewhere : p ≠ .here) :
    ∃ slash : String, (p.entry piece).text = p.text ++ slash ++ piece ∧
      '/' ∈ (p.text ++ slash).toList ∧ '\x00' ∉ slash.toList := by
  have text (before : List Char) (is : p.before = before) :
      (p.entry piece).text = String.ofList before ++ piece := by
    rw [p.entry_eq slashless, into, is, String.ofList_append, String.ofList_toList]
  have empty : ¬p.text.isEmpty := by simpa [String.isEmpty_iff] using some_
  by_cases ends : p.endsInSlash
  · have is : p.before = p.text.toList := by
      rw [before, if_neg (by simp [elsewhere, empty]), if_pos ends]
    refine ⟨"", ?_, ?_, by decide⟩
    · rw [text _ is, String.ofList_toList, String.append_empty]
    · rw [String.append_empty]
      exact List.mem_of_getLast? (of_decide_eq_true ends)
  · have is : p.before = p.text.toList ++ ['/'] := by
      rw [before, if_neg (by simp [elsewhere, empty]), if_neg ends]
    refine ⟨"/", ?_, ?_, by decide⟩
    · rw [text _ is, String.ofList_append, String.ofList_toList]
    · rw [String.toList_append]
      exact List.mem_append_right _ (by decide)

lemma here_entry (piece : String) : Path.here.entry piece = ⟨piece⟩ := by
  rw [entry, if_pos rfl]

/-- Behind the current directory, a piece is not empty. -/
lemma Fits.piece_ne_empty (fits : Path.here.Fits (piece :: pieces)) : piece ≠ "" := by
  rintro rfl
  exact fits.here rfl rfl

lemma Fits.next (fits : p.Fits (piece :: pieces)) : (p.entry piece).Fits pieces := by
  have slashless := List.forall_mem_cons.mp fits.slashless
  by_cases here : p = .here
  · subst here
    rw [here_entry]
    refine ⟨fits.piece_ne_empty, slashless.2, fun is => ?_⟩
    obtain rfl : piece = "." := congrArg Path.text is
    exact fits.here rfl
  · obtain ⟨slash, text, mem, -⟩ := entry_text fits.nonempty slashless.1 here
    have mem' : '/' ∈ (p.entry piece).text.toList := by
      rw [text, String.toList_append]
      exact List.mem_append_left _ mem
    refine ⟨?_, slashless.2, ?_⟩
    · intro none
      rw [none] at mem'
      exact absurd mem' (by decide)
    · intro is
      rw [is] at mem'
      exact absurd mem' (by decide)

/-- A path grows with every piece. -/
lemma Fits.size_le (fits : p.Fits (piece :: pieces)) :
    p.text.utf8ByteSize ≤ (p.entry piece).text.utf8ByteSize := by
  by_cases here : p = .here
  · subst here
    rw [here_entry]
    exact Nat.pos_of_ne_zero (mt String.utf8ByteSize_eq_zero_iff.mp fits.piece_ne_empty)
  · obtain ⟨slash, text, -⟩ := entry_text fits.nonempty (List.forall_mem_cons.mp fits.slashless).1 here
    rw [text, String.utf8ByteSize_append, String.utf8ByteSize_append]
    omega

lemma Fits.null_mem_iff (fits : p.Fits (piece :: pieces)) :
    '\x00' ∈ (p.entry piece).text.toList ↔ '\x00' ∈ p.text.toList ∨ '\x00' ∈ piece.toList := by
  by_cases here : p = .here
  · subst here
    have no : '\x00' ∉ Path.here.text.toList := by decide
    rw [here_entry]
    simp [no]
  · obtain ⟨slash, text, -, no⟩ :=
      entry_text fits.nonempty (List.forall_mem_cons.mp fits.slashless).1 here
    rw [text, String.toList_append, String.toList_append, List.mem_append, List.mem_append]
    simp [no]

/-- The spelling of a path is not shorter than that of its first pieces. -/
lemma Fits.foldl_size_le (fits : p.Fits pieces) :
    p.text.utf8ByteSize ≤ (pieces.foldl entry p).text.utf8ByteSize := by
  induction pieces generalizing p with
  | nil => exact Nat.le_refl _
  | cons piece pieces ih => exact Nat.le_trans fits.size_le (ih fits.next)

lemma Fits.left {before after : List String} (fits : p.Fits (before ++ after)) :
    p.Fits before := by
  refine ⟨fits.nonempty, fun piece mem => ?_, fun here head => fits.here here ?_⟩
  · exact fits.slashless piece (List.mem_append_left _ mem)
  · obtain ⟨rest, is⟩ := List.head?_eq_some_iff.mp head
    rw [List.dropWhile_append, is]
    rfl

lemma Fits.right {before after : List String} (fits : p.Fits (before ++ after)) :
    (before.foldl entry p).Fits after := by
  induction before generalizing p with
  | nil => exact fits
  | cons piece before ih => exact ih fits.next

/-- The pieces are those between slashes, apart from an empty one at the end. -/
lemma pieces_eq (dir : Path) : ∃ last : List String, (last = [] ∨ last = [""]) ∧
    dir.pieces ++ last = (splitSlashes
      (if dir.isAbsolute then dir.text.toList.tail else dir.text.toList)).map String.ofList := by
  rw [pieces]
  generalize splitSlashes _ = all
  split
  · rename_i ends
    obtain ⟨init, rfl⟩ := List.getLast?_eq_some_iff.mp ends
    refine ⟨[""], .inr rfl, ?_⟩
    rw [List.dropLast_concat, List.map_append]
    rfl
  · exact ⟨[], .inl rfl, List.append_nil _⟩

lemma slashless_pieces (dir : Path) : ∀ piece ∈ dir.pieces, '/' ∉ piece.toList := by
  obtain ⟨last, -, is⟩ := dir.pieces_eq
  intro piece mem
  have mem' := List.mem_append_left last mem
  rw [is, List.mem_map] at mem'
  obtain ⟨chars, mem', rfl⟩ := mem'
  rw [String.toList_ofList]
  exact slash_not_mem_splitSlashes _ _ mem'

/-- The step that a piece asks for. -/
def step? (piece : String) : Option PathStep :=
  PathStep.ofPiece? piece.toList

lemma fits_root (straight : ¬dir.Stray) : dir.root.Fits dir.pieces := by
  refine ⟨?_, dir.slashless_pieces, ?_⟩
  · rw [root]
    split <;> decide
  · intro here stray
    refine straight ⟨fun absolute => ?_, stray⟩
    rw [root, if_pos absolute] at here
    exact absurd here (by decide)

end Path

namespace FileTree

variable {t : FileTree} {cwd : Location} {p dir : Path} {piece : String} {pieces : List String}

/-- An entry is reached by a step from its directory. -/
lemma directory?_entry (t : FileTree) (cwd : Location) (some_ : p.text ≠ "")
    (slashless : '/' ∉ piece.toList) :
    t.directory? cwd (p.entry piece).text.toList =
      (t.directory? cwd p.text.toList).bind fun (k, d) =>
        t.approach k d (Path.step? piece).toList := by
  have head : (p.before ++ piece.toList).head? = some '/' ↔ p.before.head? = some '/' := by
    cases p.before with
    | cons c s => rfl
    | nil =>
      rw [List.nil_append]
      exact ⟨fun starts => absurd (List.mem_of_mem_head? starts) slashless, nofun⟩
  rw [← directory?_before_eq t cwd some_, p.entry_eq slashless, Path.into, String.toList_ofList,
    directory?, directory?, stepsOf_into p.leading_before slashless, approach_append, Path.step?]
  simp only [head]

end FileTree

end EnumGen
