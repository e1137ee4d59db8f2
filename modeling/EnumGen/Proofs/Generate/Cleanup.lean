import EnumGen.Proofs.Files.Opening
import EnumGen.Proofs.Generate.Failure

/-!
# What is cleaned up after a failed write

A failed output is removed without a look at how far the write has come. So it matters what the
output path names if the file could not even be opened. A directory withstands the removal, and where
nothing is, there is nothing to remove. But a link is taken away, although it is not what was written
to: whether it leads to a directory, into a directory that is missing or back to itself, it is gone
after the run, and it alone (`cleanup_of_unopened`).
-/

namespace EnumGen.Machine

variable {h : Machine} {job : Job} {input : Path} {d : Document} {e : FileError}

/-- If the output of a document cannot be opened, then the tree stays as it is exactly if the output
path does not name a link. If it does, the link is removed and nothing else changes. -/
theorem cleanup_of_unopened (job : Job) (holds : h.Holds input d)
    (unopened : h.tree.openError? h.cwd input.output = some e) :
    ∃ h', h.run (process job input) = (.error (.io input.output e), h') ∧
      (h'.tree = h.tree ↔
        ∀ l target, h.tree.resolve .entry h.cwd input.output ≠ .ok ⟨l, some (.link target)⟩) ∧
      ∀ l target, h.tree.resolve .entry h.cwd input.output = .ok ⟨l, some (.link target)⟩ →
        ∀ k, h'.tree.get? k = if k = l then none else h.tree.get? k := by
  have fails : (h.tree.write h.cwd input.output (h.code job input d)).1 = .error e := by
    rw [FileTree.write_of_openError? unopened]
  obtain ⟨log, ran⟩ := (Outcome.unwritten (document_eq_ok_iff.mpr holds) fails).run
  refine ⟨_, ran, ?_⟩
  dsimp only
  rw [FileTree.remove]
  have stays {r : Except FileError Place} (no : ∀ l target, r ≠ .ok ⟨l, some (.link target)⟩) :
      (h.tree = h.tree ↔ ∀ l target, r ≠ .ok ⟨l, some (.link target)⟩) ∧
        ∀ l target, r = .ok ⟨l, some (.link target)⟩ →
          ∀ k, h.tree.get? k = if k = l then none else h.tree.get? k :=
    ⟨iff_of_true rfl no, fun l target is => absurd is (no l target)⟩
  cases names : h.tree.resolve .entry h.cwd input.output with
  | error _ => exact stays fun _ _ is => by cases is
  | ok place =>
    obtain ⟨l, entry⟩ := place
    cases entry with
    | none => exact stays fun _ _ is => by cases is
    | some x =>
      have passage := FileTree.passage_of_openError? unopened
        (Path.not_asksForDirectory_output input) names
      cases x with
      | dir => exact stays fun _ _ is => by cases is
      | file | fullDevice => cases passage
      | link target =>
        have found : h.tree.get? l = some (.link target) :=
          (FileTree.resolve_eq_ok_iff.mp names).2.entry.symm
        have ne : l ≠ [] := by
          rintro rfl
          cases found
        have erased (k : Location) :
            (h.tree.erase l).get? k = if k = l then none else h.tree.get? k := by
          rw [FileTree.get?_erase]
          by_cases root : k = []
          · subst root
            rw [if_pos rfl, if_neg ne.symm]
            rfl
          · rw [if_neg root]
        refine ⟨iff_of_false ?_ fun no => no l target rfl, ?_⟩
        · intro same
          have gone := erased l
          rw [if_pos rfl] at gone
          dsimp only at same
          rw [same, found] at gone
          cases gone
        · intro l' target' is
          cases is
          exact erased

/-- A definition file whose output is a directory. -/
def obstructed : Machine where
  tree := ⟨[([enumFile], .file "package p\n".toUTF8), ([goFile], .dir)], by decide⟩
  cwd := []
  clock := ⟨2015, 3, 7, 9, 5, 1⟩
  log := #[]

/-- The directory is still there after the failure, and so is everything else. -/
theorem cleanup_of_unopened_directory :
    obstructed.Holds ⟨"a.enum"⟩ ⟨"p", []⟩ ∧
      obstructed.tree.openError? obstructed.cwd (Path.output ⟨"a.enum"⟩) = some .isDirectory ∧
      ∃ h', obstructed.run (process ⟨.std, "me"⟩ ⟨"a.enum"⟩) =
          (.error (.io (Path.output ⟨"a.enum"⟩) .isDirectory), h') ∧ h'.tree = obstructed.tree := by
  have source : obstructed.tree.get? (enumFile :: obstructed.cwd) =
      some (.file "package p\n".toUTF8) := rfl
  have dir : obstructed.tree.get? (goFile :: obstructed.cwd) = some .dir := rfl
  have parsed : Document.parse "package p\n" = .ok ⟨"p", []⟩ := by cbv
  have holds : obstructed.Holds ⟨"a.enum"⟩ ⟨"p", []⟩ :=
    holds_name (n := enumFile) (by decide) source parsed
  have steps : (Path.output ⟨"a.enum"⟩).steps = [.name goFile] := by decide
  have resolved (purpose : Purpose) :
      obstructed.tree.resolve purpose obstructed.cwd (Path.output ⟨"a.enum"⟩) =
        .ok ⟨[goFile], some .dir⟩ := by
    rw [FileTree.resolve_eq_ok_iff, steps]
    exact ⟨by decide, .enter FileTree.not_asked_nil (by decide) dir .done⟩
  have unopened : obstructed.tree.openError? obstructed.cwd (Path.output ⟨"a.enum"⟩) =
      some .isDirectory := by
    rw [FileTree.openError?, resolved]
  obtain ⟨h', ran, kept, -⟩ := cleanup_of_unopened ⟨.std, "me"⟩ holds unopened
  refine ⟨holds, unopened, h', ran, kept.mpr ?_⟩
  intro l target names
  rw [resolved] at names
  cases names

/-- The name of a directory. -/
def subdirectory : Name := ⟨"d", by decide⟩

/-- A definition file whose output is a link to a directory. -/
def redirected : Machine where
  tree := ⟨[([enumFile], .file "package p\n".toUTF8), ([goFile], .link ⟨"d"⟩),
    ([subdirectory], .dir)], by decide⟩
  cwd := []
  clock := ⟨2015, 3, 7, 9, 5, 1⟩
  log := #[]

/-- A link that could not be opened to be written is gone after the failure. -/
theorem cleanup_removes_unopened :
    redirected.Holds ⟨"a.enum"⟩ ⟨"p", []⟩ ∧
      redirected.tree.openError? redirected.cwd (Path.output ⟨"a.enum"⟩) = some .isDirectory ∧
      ∃ h', redirected.run (process ⟨.std, "me"⟩ ⟨"a.enum"⟩) =
          (.error (.io (Path.output ⟨"a.enum"⟩) .isDirectory), h') ∧
        redirected.tree.get? [goFile] = some (.link ⟨"d"⟩) ∧ h'.tree.get? [goFile] = none := by
  have source : redirected.tree.get? (enumFile :: redirected.cwd) =
      some (.file "package p\n".toUTF8) := rfl
  have link : redirected.tree.get? (goFile :: redirected.cwd) = some (.link ⟨"d"⟩) := rfl
  have dir : redirected.tree.get? (subdirectory :: redirected.cwd) = some .dir := rfl
  have parsed : Document.parse "package p\n" = .ok ⟨"p", []⟩ := by cbv
  have holds : redirected.Holds ⟨"a.enum"⟩ ⟨"p", []⟩ :=
    holds_name (n := enumFile) (by decide) source parsed
  have steps : (Path.output ⟨"a.enum"⟩).steps = [.name goFile] := by decide
  have target : Path.steps ⟨"d"⟩ = [.name subdirectory] := by decide
  have resolved : redirected.tree.resolve .writing redirected.cwd (Path.output ⟨"a.enum"⟩) =
      .ok ⟨[subdirectory], some .dir⟩ := by
    rw [FileTree.resolve_eq_ok_iff, steps]
    refine ⟨by decide, .follow FileTree.not_asked_nil (by decide) link (by decide) ?_⟩
    rw [target]
    exact .enter FileTree.not_asked_nil (by decide) dir .done
  have unopened : redirected.tree.openError? redirected.cwd (Path.output ⟨"a.enum"⟩) =
      some .isDirectory := by
    rw [FileTree.openError?, resolved]
  have names : redirected.tree.resolve .entry redirected.cwd (Path.output ⟨"a.enum"⟩) =
      .ok ⟨[goFile], some (.link ⟨"d"⟩)⟩ := by
    rw [FileTree.resolve_eq_ok_iff, steps]
    exact ⟨by decide, .link (by decide) link rfl⟩
  have fails : (redirected.tree.write redirected.cwd (Path.output ⟨"a.enum"⟩)
      (redirected.code ⟨.std, "me"⟩ ⟨"a.enum"⟩ ⟨"p", []⟩)).1 = .error .isDirectory := by
    rw [FileTree.write_of_openError? unopened]
  obtain ⟨log, ran⟩ := (Outcome.unwritten (document_eq_ok_iff.mpr holds) fails).run
  refine ⟨holds, unopened, _, ran, link, ?_⟩
  dsimp only
  rw [FileTree.remove, names]
  exact FileTree.get?_erase ..

end EnumGen.Machine
