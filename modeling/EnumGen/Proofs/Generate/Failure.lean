import EnumGen.Proofs.Files.Siblings
import EnumGen.Proofs.Generate.Run
import Mathlib

/-!
# What a failed run leaves behind

A file that holds no document fails before anything is written, so the tree stays as it is. If the
output cannot be written, nothing is there of it afterwards: the entry that the output path names is
taken away or left alone, and no other entry changes. A list of files stops at the first one that
fails, in the state that this one leaves behind (`failure_leaves_no_part`).
-/

namespace EnumGen

lemma fromUTF8?_toUTF8 (s : String) : String.fromUTF8? s.toUTF8 = some s :=
  dif_pos s.isValidUTF8

lemma fromUTF8?_cases (bytes : ByteArray) :
    (String.fromUTF8? bytes = none ∧ ¬bytes.IsValidUTF8) ∨
      ∃ s : String, String.fromUTF8? bytes = some s ∧ bytes = s.toUTF8 := by
  by_cases text : bytes.IsValidUTF8
  · exact .inr ⟨String.fromUTF8 bytes text, dif_pos text, rfl⟩
  · exact .inl ⟨dif_neg text, text⟩

namespace Machine

variable {h h' : Machine} {job : Job} {input : Path} {d : Document}

/-! ## Reading a document -/

/-- The failures with which a file is refused: it cannot be read, it is not text, or it is not the
text of a document. -/
inductive Refuses (h : Machine) (input : Path) : Failure → Prop
  | unread {e} (fails : h.tree.read h.cwd input = .error e) : Refuses h input (.io input e)
  | notText {bytes} (reads : h.tree.read h.cwd input = .ok bytes) (not : ¬bytes.IsValidUTF8) :
    Refuses h input (.io input .notText)
  | noDocument {source : String} {e} (reads : h.tree.read h.cwd input = .ok source.toUTF8)
    (fails : Document.parse source = .error e) : Refuses h input (.parse input e)

/-- The file holds the text of the document. -/
def Holds (h : Machine) (input : Path) (d : Document) : Prop :=
  ∃ source : String, h.tree.read h.cwd input = .ok source.toUTF8 ∧ Document.parse source = .ok d

/-- A file is read as the document that it holds, or it is refused. -/
lemma document_spec (h : Machine) (input : Path) :
    (∃ d, h.document input = .ok d ∧ h.Holds input d) ∨
      ∃ f, h.document input = .error f ∧ h.Refuses input f := by
  rw [document]
  cases read : h.tree.read h.cwd input with
  | error e => exact .inr ⟨_, rfl, .unread read⟩
  | ok bytes =>
    dsimp only
    obtain ⟨none, not⟩ | ⟨source, text, rfl⟩ := fromUTF8?_cases bytes
    · rw [none]
      exact .inr ⟨_, rfl, .notText read not⟩
    · rw [text]
      dsimp only
      cases parsed : Document.parse source with
      | error e => exact .inr ⟨_, rfl, .noDocument read parsed⟩
      | ok d => exact .inl ⟨d, rfl, source, read, parsed⟩

lemma refuses_of_document {f : Failure} (refuses : h.document input = .error f) :
    h.Refuses input f := by
  obtain ⟨d, reads, -⟩ | ⟨f', refuses', refused⟩ := h.document_spec input
  · cases reads.symm.trans refuses
  · cases refuses'.symm.trans refuses
    exact refused

lemma document_eq_ok_iff : h.document input = .ok d ↔ h.Holds input d := by
  constructor
  · intro reads
    obtain ⟨d', reads', holds⟩ | ⟨f, refuses, -⟩ := h.document_spec input
    · cases reads'.symm.trans reads
      exact holds
    · cases refuses.symm.trans reads
  · rintro ⟨source, read, parsed⟩
    rw [document, read]
    dsimp only
    rw [fromUTF8?_toUTF8]
    dsimp only
    rw [parsed]

/-- A file holds no second document. -/
lemma Holds.unique {d' : Document} (holds : h.Holds input d) (holds' : h.Holds input d') :
    d = d' := by
  rw [← document_eq_ok_iff] at holds holds'
  exact Except.ok.inj (holds.symm.trans holds')

/-- A file in the current directory holds the document that its text stands for. -/
lemma holds_name {n : Name} {source : String} (short : n.text.utf8ByteSize ≤ maxNameBytes)
    (found : h.tree.get? (n :: h.cwd) = some (.file source.toUTF8))
    (parsed : Document.parse source = .ok d) : h.Holds ⟨n.text⟩ d :=
  ⟨source, FileTree.read_name short found, parsed⟩

/-- In the current directory an output is written where its name is free. -/
lemma run_process_name (job : Job) {n m : Name} (holds : h.Holds ⟨n.text⟩ d)
    (output : Path.output ⟨n.text⟩ = ⟨m.text⟩) (short : m.text.utf8ByteSize ≤ maxNameBytes)
    (free : h.tree.Free (m :: h.cwd)) :
    ∃ log, h.run (process job ⟨n.text⟩) = (.ok ⟨m.text⟩, { h with
      tree := h.tree.put (m :: h.cwd) (.file (h.code job ⟨n.text⟩ d)), log }) := by
  have resolved : h.tree.resolve .writing h.cwd ⟨m.text⟩ =
      .ok ⟨m :: h.cwd, h.tree.get? (m :: h.cwd)⟩ :=
    FileTree.resolve_name short free
  have writes : h.tree.write h.cwd ⟨m.text⟩ (h.code job ⟨n.text⟩ d) =
      (.ok (), h.tree.put (m :: h.cwd) (.file (h.code job ⟨n.text⟩ d))) := by
    rw [FileTree.write, resolved]
    obtain none | ⟨old, file⟩ := free
    · rw [none]
    · rw [file]
  have written : (h.tree.write h.cwd (Path.output ⟨n.text⟩) (h.code job ⟨n.text⟩ d)).1 = .ok () := by
    rw [output, writes]
  obtain ⟨log, ran⟩ := (Outcome.written (document_eq_ok_iff.mpr holds) written).run
  rw [output, writes] at ran
  exact ⟨log, ran⟩

/-! ## Failures -/

/-- Removing a path takes away no more than the entry that it names. -/
lemma get?_remove (t : FileTree) (cwd : Location) (p : Path) (l : Location) :
    (t.remove cwd p).get? l = t.get? l ∨
      (∃ e, t.resolve .entry cwd p = .ok ⟨l, e⟩) ∧ (t.remove cwd p).get? l = none := by
  rw [FileTree.remove_eq]
  cases taken : t.removed? cwd p with
  | none => exact .inl rfl
  | some k =>
    rw [Option.map_some, Option.getD_some, FileTree.get?_erase]
    by_cases is : l = k
    · subst is
      obtain ⟨e, names, -⟩ := FileTree.resolve_of_removed? taken
      rw [if_neg (FileTree.ne_nil_of_removed? taken), if_pos rfl]
      exact .inr ⟨⟨_, names⟩, rfl⟩
    · by_cases root : l = []
      · subst root
        exact .inl rfl
      · rw [if_neg root, if_neg is]
        exact .inl rfl

lemma Processes.outputs {inputs outputs : List Path} (p : Processes job h inputs outputs h') :
    outputs = inputs.map Path.output := by
  induction p with
  | nil => rfl
  | @cons h h₁ _ input output _ _ first _ ih =>
    obtain ⟨r, tree, log, ran, o⟩ := run_process h job input
    rw [first, Prod.mk.injEq] at ran
    obtain ⟨rfl, -⟩ := ran
    cases o
    rw [ih, List.map_cons]

/-- A file that is refused changes nothing, and an output that cannot be written leaves at most its
own entry changed, which is then gone. A list of files comes to the outputs of all of them or to the
first failure, and what follows the failure is not touched. -/
theorem failure_leaves_no_part (job : Job) (h : Machine) :
    (∀ input f h', h.run (process job input) = (.error f, h') →
      h.Refuses input f ∧ h'.tree = h.tree ∨
        ∃ d e, h.Holds input d ∧
          (h.tree.write h.cwd input.output (h.code job input d)).1 = .error e ∧
          f = .io input.output e ∧
          ∀ l, h'.tree.get? l = h.tree.get? l ∨
            (∃ entry, h.tree.resolve .entry h.cwd input.output = .ok ⟨l, entry⟩) ∧
              h'.tree.get? l = none) ∧
      (∀ inputs outputs h', h.run (processAll job inputs) = (.ok outputs, h') ↔
        Processes job h inputs outputs h' ∧ outputs = inputs.map Path.output) ∧
      ∀ inputs f h', h.run (processAll job inputs) = (.error f, h') ↔
        ∃ before input after outputs h₁, inputs = before ++ input :: after ∧
          Processes job h before outputs h₁ ∧ h₁.run (process job input) = (.error f, h') := by
  refine ⟨?_, ?_, ?_⟩
  · intro input f h' ran
    obtain ⟨r, tree, log, ran', o⟩ := run_process h job input
    rw [ran, Prod.mk.injEq] at ran'
    obtain ⟨rfl, rfl⟩ := ran'
    cases o with
    | refused refuses => exact .inl ⟨refuses_of_document refuses, rfl⟩
    | @unwritten d e reads fails =>
      dsimp only
      exact .inr ⟨d, e, document_eq_ok_iff.mp reads, fails, rfl, get?_remove h.tree h.cwd input.output⟩
  · intro inputs outputs h'
    rw [run_processAll_ok_iff]
    constructor
    · intro p
      exact ⟨p, p.outputs⟩
    · exact And.left
  · intro inputs f h'
    exact run_processAll_error_iff

/-- The name of a definition file. -/
def enumFile : Name := ⟨"a.enum", by decide⟩

/-- The name of its output. -/
def goFile : Name := ⟨"a.go", by decide⟩

/-- A definition file whose output is a link into a directory that is not there. -/
def dangling : Machine where
  tree := ⟨[([enumFile], .file "package p".toUTF8), ([goFile], .link ⟨"b/c"⟩)], by decide⟩
  cwd := []
  clock := ⟨2015, 3, 7, 9, 5, 1⟩
  log := #[]

/-- The link cannot be written through, and it is gone afterwards; nothing else has changed. -/
theorem failure_leaves_no_part_dangling :
    ∃ h', dangling.run (process ⟨.std, "me"⟩ ⟨"a.enum"⟩) = (.error (.io ⟨"a.go"⟩ .notFound), h') ∧
      h'.tree.get? [goFile] = none ∧
      ∀ l, l ≠ [goFile] → h'.tree.get? l = dangling.tree.get? l := by
  have source : dangling.tree.get? (enumFile :: dangling.cwd) =
      some (.file "package p".toUTF8) := rfl
  have link : dangling.tree.get? (goFile :: dangling.cwd) = some (.link ⟨"b/c"⟩) := rfl
  have output : Path.output ⟨"a.enum"⟩ = ⟨"a.go"⟩ := by decide
  have steps : Path.steps ⟨"a.go"⟩ = [.name goFile] := by decide
  have parsed : Document.parse "package p" = .ok ⟨"p", []⟩ := by cbv
  have holds : dangling.Holds ⟨"a.enum"⟩ ⟨"p", []⟩ :=
    holds_name (n := enumFile) (by decide) source parsed
  have blocked : dangling.tree.resolve .writing dangling.cwd ⟨"a.go"⟩ = .error .notFound := by
    have target : Path.steps ⟨"b/c"⟩ = [.name ⟨"b", by decide⟩, .name ⟨"c", by decide⟩] := by decide
    have asked : ¬(Purpose.writing = .writing ∧ ([] : List PathStep) = [.slash]) := by decide
    have through : ¬(([] : List PathStep) = [] ∧ Purpose.writing = .entry) := by decide
    have fails : dangling.tree.walk .writing (39 + 1) dangling.cwd [.name goFile] =
        .error .notFound := by
      rw [FileTree.walk_link asked (by decide) link through, target, List.append_nil, FileTree.walk,
        if_neg (by decide), if_neg (by decide)]
      rfl
    rw [FileTree.resolve, if_neg (by decide), if_neg (by decide), if_neg (by decide), steps]
    exact fails
  have fails : (dangling.tree.write dangling.cwd (Path.output ⟨"a.enum"⟩)
      (dangling.code ⟨.std, "me"⟩ ⟨"a.enum"⟩ ⟨"p", []⟩)).1 = .error .notFound := by
    rw [output, FileTree.write, blocked]
  have names : dangling.tree.resolve .entry dangling.cwd ⟨"a.go"⟩ =
      .ok ⟨[goFile], some (.link ⟨"b/c"⟩)⟩ := by
    rw [FileTree.resolve_eq_ok_iff, steps]
    exact ⟨by decide, .link (by decide) link rfl⟩
  obtain ⟨log, ran⟩ := (Outcome.unwritten (document_eq_ok_iff.mpr holds) fails).run
  rw [output] at ran
  refine ⟨_, ran, ?_, ?_⟩
  · dsimp only
    rw [FileTree.remove, names]
    dsimp only
    rw [FileTree.get?_erase, if_neg (List.cons_ne_nil _ _), if_pos rfl]
  · obtain ⟨refused, -⟩ | ⟨_, _, -, -, -, frame⟩ := (failure_leaves_no_part _ _).1 _ _ _ ran
    · generalize is : Failure.io ⟨"a.go"⟩ .notFound = f at refused
      cases refused with
      | unread | notText =>
        rw [Failure.io.injEq] at is
        exact absurd is.1 (by decide)
      | noDocument => cases is
    · intro l ne
      obtain same | ⟨⟨e, names'⟩, -⟩ := frame l
      · exact same
      · rw [output, names, Except.ok.injEq, Place.mk.injEq] at names'
        exact absurd names'.1.symm ne

end Machine

end EnumGen
