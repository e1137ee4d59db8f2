import EnumGen.Proofs.Generate.Search

/-!
# What is found in a directory

Looking for inputs changes nothing but the log. Whatever the pieces of the directory's path, the
inputs that are found are the distinct names in one listing, all spelled with the same text in front
(`run_discover`).
-/

namespace EnumGen.Machine

variable {h h' : Machine} {inputs : List Path}

/-- The distinct names of inputs in one directory. -/
structure Found (names : List String) : Prop where
  nodup : names.Nodup
  isName : ∀ n ∈ names, IsName n.toList
  isInput : ∀ n ∈ names, isInputName n

lemma found_inputsAt (t : FileTree) (l : Location) : Found (t.inputsAt l) := by
  constructor
  · exact t.nodup_inputsAt l
  · intro name at_
    obtain ⟨n, rfl, -, -⟩ := FileTree.mem_inputsAt.mp at_
    exact n.isName
  · intro name at_
    obtain ⟨-, -, input, -⟩ := FileTree.mem_inputsAt.mp at_
    exact input

/-- The inputs that are found are the entries of one directory that have the names of inputs. -/
lemma run_discover {dir : Path} (found : h.run (discover [] dir) = (.ok inputs, h')) :
    (∃ log, h' = { h with log }) ∧
      ∃ p names, inputs = names.map (Path.entry p) ∧ Found names := by
  obtain ⟨log, ran⟩ := run_discover_eq h dir
  rw [ran, Prod.mk.injEq] at found
  obtain ⟨found, rfl⟩ := found
  obtain ⟨p, _, d, -, is, -⟩ := FileTree.discover_grown found
  exact ⟨⟨log, rfl⟩, p, h.tree.inputsAt d, is, found_inputsAt h.tree d⟩

/-- In the current directory the inputs are spelled by their names. -/
lemma run_discover_here (names : List String) (here : h.tree.get? h.cwd = some .dir)
    (found : h.tree.inputsAt h.cwd = names) (some_ : names ≠ []) :
    ∃ log, h.run (discover [] .here) = (.ok (names.map Path.mk), { h with log }) := by
  obtain ⟨log, ran⟩ := run_discover_eq h .here
  refine ⟨log, ?_⟩
  have accepted : FileTree.Accepted .here := by decide
  have steps : Path.here.steps = [.here] := by decide
  have resolved : h.tree.resolve .target h.cwd .here = .ok ⟨h.cwd, some .dir⟩ := by
    rw [FileTree.resolve_eq_ok_iff, steps, ← here]
    exact ⟨accepted, .here .done⟩
  have way : h.tree.isWay h.cwd ⟨.here, false⟩ := FileTree.isDir_iff.mpr ⟨h.cwd, resolved⟩
  have read : h.tree.entries? h.cwd ⟨.here, false⟩ = .ok (some (h.tree.listing h.cwd)) := by
    rw [FileTree.entries?, if_pos way, FileTree.list_eq_ok_iff.mpr ⟨h.cwd, resolved, rfl⟩]
  have next : h.tree.next? h.cwd ⟨.here, false⟩ "." = .ok (some ⟨.here, false⟩) := by
    rw [FileTree.next?, if_neg (by decide), if_pos (.inl rfl), if_pos way]
    rfl
  have spelled : Path.entry .here = Path.mk := by
    funext n
    rw [Path.entry, if_pos rfl]
  have searched : h.tree.search h.cwd ⟨.here, false⟩ ["."] = .ok (names.map Path.mk) := by
    rw [FileTree.search, next]
    dsimp only
    rw [FileTree.search, read]
    dsimp only
    rw [Option.getD_some, FileTree.names_listing, spelled, ← FileTree.inputsAt, found]
  have pieces : Path.here.pieces = ["."] := by decide
  have start : (if Path.here.isAbsolute then ⟨"/"⟩ else Path.here) = .here := by decide
  rw [ran, FileTree.discover, start, pieces, searched]
  dsimp only
  rw [if_neg (by simpa using some_)]

end EnumGen.Machine
