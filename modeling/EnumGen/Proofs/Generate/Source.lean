import EnumGen.Proofs.Generate.Failure

/-!
# What becomes of the definition file

The output path is made from the input path, and both may lead to one file: the input is named
`a.go`, or there is a link between the two. The definitions are then replaced by the generated code.
And an output that cannot be written is removed, even if it is a link that the input path passes. In
every other case the input reads as it did before (`content_process_iff`).
-/

namespace EnumGen.Machine

variable {h : Machine} {job : Job} {input : Path}

/-- What is read from a file. -/
def content (h : Machine) (p : Path) : Except FileError ByteArray :=
  h.tree.read h.cwd p

/-- Processing the file destroys it. -/
inductive Destroys (h : Machine) (job : Job) (input : Path) : Prop
  /-- the output is the file itself, and what is generated is not what it holds already -/
  | overwritten {d l} (holds : h.Holds input d)
    (writes : (h.tree.write h.cwd input.output (h.code job input d)).1 = .ok ())
    (source : h.tree.location? h.cwd input = some l)
    (target : h.tree.location? h.cwd input.output = some l)
    (new : h.content input ≠ .ok (h.code job input d))
  /-- the output cannot be written, and its entry is on the way to the file -/
  | cutOff {d e l} (holds : h.Holds input d)
    (fails : (h.tree.write h.cwd input.output (h.code job input d)).1 = .error e)
    (taken : h.tree.removed? h.cwd input.output = some l) (onWay : l ∈ h.tree.wayTo h.cwd input)

/-- What processing a file that holds a document does to the file, by the outcome of the write. -/
lemma destroys_iff {d : Document} (holds : h.Holds input d) :
    h.Destroys job input ↔
      ((h.tree.write h.cwd input.output (h.code job input d)).1 = .ok () ∧
        h.content input ≠ .ok (h.code job input d) ∧
        ∃ l, h.tree.location? h.cwd input = some l ∧
          h.tree.location? h.cwd input.output = some l) ∨
      (∃ e, (h.tree.write h.cwd input.output (h.code job input d)).1 = .error e) ∧
        ∃ l, h.tree.removed? h.cwd input.output = some l ∧ l ∈ h.tree.wayTo h.cwd input := by
  constructor
  · rintro (⟨holds', writes, source, target, new⟩ | ⟨holds', fails, taken, onWay⟩)
    · cases holds'.unique holds
      exact .inl ⟨writes, new, _, source, target⟩
    · cases holds'.unique holds
      exact .inr ⟨⟨_, fails⟩, _, taken, onWay⟩
  · rintro (⟨writes, new, l, source, target⟩ | ⟨⟨e, fails⟩, l, taken, onWay⟩)
    · exact .overwritten holds writes source target new
    · exact .cutOff holds fails taken onWay

/-- After a file is processed, with success or not, it reads as before, unless the output goes to
the file itself or the removal of a failed output cuts the file off. -/
theorem content_process_iff (h : Machine) (job : Job) (input : Path) :
    (h.run (process job input)).2.content input = h.content input ↔ ¬h.Destroys job input := by
  obtain ⟨r, tree, log, ran, o⟩ := run_process h job input
  rw [ran]
  cases o with
  | refused refuses =>
    apply iff_of_true
    · rfl
    · rintro (⟨holds, -⟩ | ⟨holds, -⟩) <;>
      · rw [document_eq_ok_iff.mpr holds] at refuses
        cases refuses
  | @unwritten d e reads fails =>
    have holds := document_eq_ok_iff.mp reads
    obtain ⟨_, read, -⟩ := document_eq_ok_iff.mp reads
    rw [destroys_iff holds, content, content, FileTree.remove_eq, read]
    cases taken : h.tree.removed? h.cwd input.output with
    | none =>
      apply iff_of_true
      · exact read
      · rw [fails]
        simp
    | some l =>
      rw [Option.map_some, Option.getD_some,
        FileTree.read_erase_iff read (FileTree.ne_nil_of_removed? taken), fails]
      simp
  | @written d reads writes =>
    have holds := document_eq_ok_iff.mp reads
    obtain ⟨_, read, -⟩ := document_eq_ok_iff.mp reads
    obtain ⟨k, leads, -⟩ := FileTree.location?_of_read read
    -- the file is new exactly if the output is put where it stands
    obtain ⟨l, target, free, put⟩ := FileTree.write_ok (not_isEmpty_code h job input d) writes
    rw [destroys_iff holds, content, put, FileTree.read_put free _ leads, ← content, leads, target,
      writes]
    by_cases is : k = l
    · rw [if_pos is]
      simp [is, eq_comm]
    · have other : ¬l = k := fun same => is same.symm
      rw [if_neg is]
      simp [other]

/-- A definition file that is named like an output. -/
def overwriting : Machine where
  tree := ⟨[([goFile], .file "package p".toUTF8)], by decide⟩
  cwd := []
  clock := ⟨2015, 3, 7, 9, 5, 1⟩
  log := #[]

/-- It is processed with success, and what it held is lost. -/
theorem content_process_overwriting :
    ∃ h', overwriting.run (process ⟨.std, "me"⟩ ⟨"a.go"⟩) = (.ok ⟨"a.go"⟩, h') ∧
      overwriting.content ⟨"a.go"⟩ = .ok "package p".toUTF8 ∧
      h'.content ⟨"a.go"⟩ ≠ overwriting.content ⟨"a.go"⟩ := by
  have source : overwriting.tree.get? (goFile :: overwriting.cwd) =
      some (.file "package p".toUTF8) := rfl
  have output : Path.output ⟨goFile.text⟩ = ⟨goFile.text⟩ := by decide
  have short : goFile.text.utf8ByteSize ≤ maxNameBytes := by decide
  have parsed : Document.parse "package p" = .ok ⟨"p", []⟩ := by cbv
  obtain ⟨log, ran⟩ := run_process_name ⟨.std, "me"⟩ (holds_name short source parsed)
    output short (.inr ⟨_, source⟩)
  have before : overwriting.content ⟨"a.go"⟩ = .ok "package p".toUTF8 :=
    FileTree.read_name short source
  obtain ⟨text, is, starts⟩ := head?_code overwriting ⟨.std, "me"⟩ ⟨goFile.text⟩ ⟨"p", []⟩
  rw [is] at ran
  refine ⟨_, ran, before, ?_⟩
  rw [before]
  intro same
  have texts : text = "package p" :=
    String.toByteArray_inj.mp (Except.ok.inj ((FileTree.read_put_name short).symm.trans same))
  subst texts
  cases starts

end EnumGen.Machine
