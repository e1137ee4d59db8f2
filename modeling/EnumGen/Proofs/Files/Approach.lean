import EnumGen.Proofs.Files.Directory

/-!
# Paths that lead to directories

Steps lead to a directory if they can be continued from there, so a path can be followed piece by
piece (`approach_append`). In a `Sound` tree, as file systems keep them, all steps that can be
continued end in a directory; apart from its own length, nothing else keeps a path from being resolved
to it (`resolve_dir_iff`).
-/

namespace EnumGen.FileTree

variable {t : FileTree} {purpose : Purpose} {links k : Nat} {cwd dir d l : Location}
  {steps : List PathStep} {p : Path} {n : Name} {e : Entry}

/-- Every entry stands in a directory, and its name is not too long. -/
structure Sound (t : FileTree) : Prop where
  stands : ∀ n l e, t.get? (n :: l) = some e → t.get? l = some .dir
  short : ∀ n l e, t.get? (n :: l) = some e → n.text.utf8ByteSize ≤ maxNameBytes

lemma Sound.tail (sound : t.Sound) (dir : t.get? l = some .dir) : t.get? l.tail = some .dir := by
  cases l with
  | nil => exact dir
  | cons n l => exact sound.stands n l .dir dir

lemma get?_start (here : t.get? dir = some .dir) (p : Path) : t.get? (start p dir) = some .dir := by
  rw [start]
  split
  · rfl
  · exact here

/-- Steps that can be continued lead to a directory. -/
lemma Sound.approach (sound : t.Sound) (here : t.get? dir = some .dir)
    (into : t.approach links dir steps = some (k, d)) : t.get? d = some .dir := by
  fun_induction FileTree.approach t links dir steps with
  | case1 =>
    cases into
    exact here
  | case2 _ _ _ ih | case3 _ _ _ ih => exact ih here into
  | case4 _ _ _ ih => exact ih (sound.tail here) into
  | case5 | case7 | case9 => cases into
  | case6 _ _ n _ _ found ih => exact ih found into
  | case8 _ n _ _ target _ _ ih => exact ih (get?_start here target) into

/-- A slash at the end of a path makes no difference to the directory it leads to. -/
lemma approach_steps (t : FileTree) (links : Nat) (dir : Location) (p : Path) :
    t.approach links dir p.steps = t.approach links dir (stepsOf p.text.toList) := by
  rw [Path.steps, ← stepsOf]
  split
  · exact approach_append_slash t links dir _
  · rw [List.append_nil]

lemma directory?_text (t : FileTree) (cwd : Location) (p : Path) :
    t.directory? cwd p.text.toList = t.approach maxLinks (start p cwd) p.steps := by
  rw [approach_steps, directory?, start, Path.isAbsolute]
  simp only [decide_eq_true_eq]

end EnumGen.FileTree
