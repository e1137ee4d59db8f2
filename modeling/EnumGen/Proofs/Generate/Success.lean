import EnumGen.Proofs.Code.Header
import EnumGen.Proofs.Generate.Failure

/-!
# What a successful run writes

Processing succeeds exactly if the file holds a document and its output path leads to a file or to
nothing, over links or not. Then the rendered document is there and nowhere else: the output path
reads as it, and no other location has changed (`process_writes_rendering`).
-/

namespace EnumGen

namespace FileTree

variable {t : FileTree} {cwd : Location} {p : Path}

/-- A file can be written to the path: beyond all links, there is a file or nothing. -/
def Writable (t : FileTree) (cwd : Location) (p : Path) : Prop :=
  ∃ l, t.resolve .writing cwd p = .ok ⟨l, t.get? l⟩ ∧ t.Free l

lemma write_eq_ok_iff {bytes : ByteArray} (some_ : ¬bytes.isEmpty) :
    (t.write cwd p bytes).1 = .ok () ↔ t.Writable cwd p := by
  constructor
  · intro w
    obtain ⟨l, leads, free, -⟩ := write_ok some_ w
    rw [write] at w
    cases r : t.resolve .writing cwd p with
    | error e =>
      rw [r] at w
      cases w
    | ok place =>
      obtain ⟨leads', entry⟩ := location?_of_writing r
      obtain ⟨k, e⟩ := place
      dsimp only at leads' entry
      cases leads.symm.trans leads'
      subst entry
      exact ⟨l, r, free⟩
  · rintro ⟨l, r, none | ⟨old, file⟩⟩
    · rw [write, r, none]
    · rw [write, r, file]

end FileTree

namespace Machine

variable {h h' : Machine} {job : Job} {input : Path}

/-- The document in the input is rendered into the file at the location, and nothing else is done. -/
structure Renders (h : Machine) (job : Job) (input : Path) (d : Document) (l : Location)
    (h' : Machine) : Prop where
  holds : h.Holds input d
  /-- the output path leads to the location, where there is a file or nothing -/
  leads : h.tree.location? h.cwd input.output = some l
  free : h.tree.Free l
  /-- the output path reads as the rendered document -/
  reads : h'.tree.read h'.cwd input.output =
    .ok (Code.render job.flavour ⟨input.text, job.user, h.clock⟩ d).toUTF8
  others : ∀ k, k ≠ l → h'.tree.get? k = h.tree.get? k

lemma renders_of_run {output : Path} (ran : h.run (process job input) = (.ok output, h')) :
    output = input.output ∧ ∃ d l, h.Renders job input d l h' := by
  obtain ⟨d, l, log, reads, rfl, leads, free, rfl⟩ := run_process_ok ran
  refine ⟨rfl, d, l, document_eq_ok_iff.mp reads, leads, free, ?_, ?_⟩
  · dsimp only
    rw [FileTree.read_put free _ leads, if_pos rfl, code]
  · intro k other
    exact FileTree.get?_put_of_ne other _

lemma exists_run_ok_iff :
    (∃ output h', h.run (process job input) = (.ok output, h')) ↔
      (∃ d, h.Holds input d) ∧ h.tree.Writable h.cwd input.output := by
  constructor
  · rintro ⟨output, h', ran⟩
    obtain ⟨r, tree, log, ran', o⟩ := run_process h job input
    rw [ran, Prod.mk.injEq] at ran'
    obtain ⟨rfl, -⟩ := ran'
    cases o with
    | @written d reads writes =>
      exact ⟨⟨d, document_eq_ok_iff.mp reads⟩,
        (FileTree.write_eq_ok_iff (not_isEmpty_code h job input d)).mp writes⟩
  · rintro ⟨⟨d, holds⟩, writable⟩
    have writes := (FileTree.write_eq_ok_iff (not_isEmpty_code h job input d)).mpr writable
    obtain ⟨log, ran⟩ := (Outcome.written (document_eq_ok_iff.mpr holds) writes).run
    exact ⟨_, _, ran⟩

/-- A file is processed with success exactly if it holds a document and its output can be written.
The output is then the rendered document below a header with the input path and the user, and
nothing else has changed. -/
theorem process_writes_rendering (h : Machine) (job : Job) (input : Path) :
    ((∃ output h', h.run (process job input) = (.ok output, h')) ↔
      (∃ d, h.Holds input d) ∧ h.tree.Writable h.cwd input.output) ∧
    ∀ output h', h.run (process job input) = (.ok output, h') →
      output = input.output ∧ ∃ d l, h.Renders job input d l h' ∧
        ∃ rest, Code.render job.flavour ⟨input.text, job.user, h.clock⟩ d =
          "// DO NOT EDIT.\n//\n// Generated: " ++ h.clock.text ++
            "\n// From:      " ++ input.text ++ "\n// By:        " ++ job.user ++
            "\n//\n\npackage " ++ d.package ++ "\n" ++ rest := by
  refine ⟨exists_run_ok_iff, ?_⟩
  intro output h' ran
  obtain ⟨is, d, l, renders⟩ := renders_of_run ran
  exact ⟨is, d, l, renders, Code.render_eq_header job.flavour ⟨input.text, job.user, h.clock⟩ d⟩

/-- The file that the output is a link to. -/
def linkedFile : Name := ⟨"b.go", by decide⟩

/-- A definition file whose output is a link to another file. -/
def linked : Machine where
  tree := ⟨[([enumFile], .file "package p".toUTF8), ([goFile], .link ⟨"b.go"⟩),
    ([linkedFile], .file "package old // longer than what takes its place".toUTF8)], by decide⟩
  cwd := []
  clock := ⟨2015, 3, 7, 9, 5, 1⟩
  log := #[]

/-- The link is written through: it stays, and the file behind it is replaced. -/
theorem process_writes_rendering_linked :
    ∃ h', linked.run (process ⟨.json, "me"⟩ ⟨"a.enum"⟩) = (.ok ⟨"a.go"⟩, h') ∧
      h'.tree.get? [goFile] = some (.link ⟨"b.go"⟩) ∧
      h'.tree.get? [enumFile] = some (.file "package p".toUTF8) ∧
      h'.tree.read h'.cwd ⟨"a.go"⟩ = .ok
        (Code.render .json ⟨"a.enum", "me", ⟨2015, 3, 7, 9, 5, 1⟩⟩ ⟨"p", []⟩).toUTF8 := by
  have source : linked.tree.get? (enumFile :: linked.cwd) = some (.file "package p".toUTF8) := rfl
  have link : linked.tree.get? (goFile :: linked.cwd) = some (.link ⟨"b.go"⟩) := rfl
  have old : linked.tree.get? [linkedFile] =
      some (.file "package old // longer than what takes its place".toUTF8) := rfl
  have output : Path.output ⟨"a.enum"⟩ = ⟨"a.go"⟩ := by decide
  have steps : Path.steps ⟨"a.go"⟩ = [.name goFile] := by decide
  have target : Path.steps ⟨"b.go"⟩ = [.name linkedFile] := by decide
  have parsed : Document.parse "package p" = .ok ⟨"p", []⟩ := by cbv
  have holds : linked.Holds ⟨"a.enum"⟩ ⟨"p", []⟩ :=
    holds_name (n := enumFile) (by decide) source parsed
  have free : linked.tree.Free [linkedFile] := .inr ⟨_, old⟩
  have resolved : linked.tree.resolve .writing linked.cwd ⟨"a.go"⟩ =
      .ok ⟨[linkedFile], linked.tree.get? [linkedFile]⟩ := by
    rw [FileTree.resolve_eq_ok_iff, steps]
    refine ⟨by decide, .follow (by decide) (by decide) link (by decide) ?_⟩
    rw [target]
    exact .last (by decide) fun _ => free.not_isPassage
  obtain ⟨succeeds, describes⟩ := process_writes_rendering linked ⟨.json, "me"⟩ ⟨"a.enum"⟩
  rw [output] at succeeds describes
  obtain ⟨out, h', ran⟩ := succeeds.mpr ⟨⟨_, holds⟩, _, resolved, free⟩
  obtain ⟨rfl, d, l, renders, -⟩ := describes out h' ran
  cases renders.holds.unique holds
  have place : l = [linkedFile] := by
    have leads := renders.leads
    rw [output, (FileTree.location?_of_writing resolved).1, Option.some_inj] at leads
    exact leads.symm
  subst place
  refine ⟨h', ran, (renders.others _ (by decide)).trans link,
    (renders.others _ (by decide)).trans source, ?_⟩
  have reads := renders.reads
  rw [output] at reads
  exact reads

end Machine

end EnumGen
