import EnumGen.Generate
import EnumGen.Proofs.Files.Effects

/-!
# What processing a file does

A run on a machine is a function, and `run_process` says all that processing one file can do: the
file holds no document and nothing happens, or its output cannot be written and is removed, or it is
written. `Processes` puts such steps together for a list of files, and `run_processAll_ok_iff` and
`run_processAll_error_iff` say that this is how a whole list is processed.
-/

namespace EnumGen.Machine

variable {α β : Type} {h h' h₁ : Machine} {job : Job} {input : Path}

/-! ## Programs -/

/-- What a program comes to on a machine, and the machine after it. -/
def run (h : Machine) (program : ExceptT Failure (StateM Machine) α) : Except Failure α × Machine :=
  (program.run).run h

lemma run_pure (a : α) : h.run (pure a) = (.ok a, h) :=
  rfl

/-- Of two programs the second is run if the first comes to a result. -/
lemma run_bind (x : ExceptT Failure (StateM Machine) α)
    (f : α → ExceptT Failure (StateM Machine) β) :
    h.run (x >>= f) =
      match h.run x with
      | (.ok a, h') => h'.run (f a)
      | (.error e, h') => (.error e, h') := by
  cases first : h.run x with
  | mk r h' =>
    rw [run] at first
    rw [run, ExceptT.run_bind, StateT.run_bind, first]
    cases r <;> rfl

/-- Of two programs the second is run after one that cannot fail. -/
lemma run_lift_bind (x : StateM Machine α) (f : α → ExceptT Failure (StateM Machine) β) :
    h.run ((x : ExceptT Failure (StateM Machine) α) >>= f) = (x.run h).2.run (f (x.run h).1) :=
  rfl

lemma run_now : (Host.now : StateM Machine Code.Stamp).run h = (h.clock, h) :=
  rfl

lemma run_read (p : Path) :
    (Host.read p : StateM Machine _).run h = (h.tree.read h.cwd p, h) :=
  rfl

lemma run_list (p : Path) :
    (Host.list p : StateM Machine _).run h = (h.tree.list h.cwd p, h) :=
  rfl

lemma run_write (p : Path) (content : ByteArray) :
    (Host.write p content : StateM Machine _).run h =
      ((h.tree.write h.cwd p content).1, { h with tree := (h.tree.write h.cwd p content).2 }) :=
  rfl

lemma run_remove (p : Path) :
    (Host.remove p : StateM Machine Unit).run h =
      ((), { h with tree := h.tree.remove h.cwd p }) :=
  rfl

lemma run_log (e : Event) :
    (Host.log e : StateM Machine Unit).run h = ((), { h with log := h.log.push e }) :=
  rfl

/-! ## One file -/

/-- The document in a file. -/
def document (h : Machine) (input : Path) : Except Failure Document :=
  match h.tree.read h.cwd input with
  | .error e => .error (.io input e)
  | .ok bytes =>
    match String.fromUTF8? bytes with
    | none => .error (.io input .notText)
    | some source =>
      match Document.parse source with
      | .error e => .error (.parse input e)
      | .ok d => .ok d

/-- The code that is generated from a document in a file. -/
def code (h : Machine) (job : Job) (input : Path) (d : Document) : ByteArray :=
  (Code.render job.flavour ⟨input.text, job.user, h.clock⟩ d).toUTF8

/-- Generated code starts with a comment. -/
lemma head?_code (h : Machine) (job : Job) (input : Path) (d : Document) :
    ∃ text : String, h.code job input d = text.toUTF8 ∧ text.toList.head? = some '/' := by
  refine ⟨_, rfl, ?_⟩
  simp [Code.render, Code.lines, Code.headerLines]

lemma not_isEmpty_code (h : Machine) (job : Job) (input : Path) (d : Document) :
    ¬(h.code job input d).isEmpty := by
  obtain ⟨text, is, starts⟩ := head?_code h job input d
  intro empty
  have size : text.utf8ByteSize = 0 := by
    rw [is] at empty
    exact beq_iff_eq.mp empty
  rw [String.utf8ByteSize_eq_zero_iff] at size
  subst size
  cases starts

lemma run_logAll (events : List ParseEvent) (h : Machine) :
    ∃ log, (logAll events : StateM Machine Unit).run h = ((), { h with log }) := by
  induction events generalizing h with
  | nil => exact ⟨h.log, rfl⟩
  | cons e es ih =>
    obtain ⟨log, rest⟩ := ih { h with log := h.log.push (.parse e) }
    exact ⟨log, rest⟩

lemma run_parseFile (h : Machine) (input : Path) :
    ∃ log, h.run (parseFile input) = (h.document input, { h with log }) := by
  rw [parseFile, run_lift_bind, run_read, document]
  dsimp only
  cases h.tree.read h.cwd input with
  | error e => exact ⟨_, rfl⟩
  | ok bytes =>
    dsimp only
    cases String.fromUTF8? bytes with
    | none => exact ⟨_, rfl⟩
    | some source =>
      obtain ⟨log, logged⟩ := run_logAll (Cursor.ofSource source).readDocument.2.events.toList h
      dsimp only
      rw [run_lift_bind, logged, Document.parse, Cursor.parseDocument]
      dsimp only
      cases (Cursor.ofSource source).readDocument.2.finish (Cursor.ofSource source).readDocument.1
      · exact ⟨_, rfl⟩
      · exact ⟨_, rfl⟩

/-- All that processing a file can come to, with the tree after it. -/
inductive Outcome (h : Machine) (job : Job) (input : Path) : Except Failure Path → FileTree → Prop
  /-- the file cannot be read, or it holds no document -/
  | refused {f} (refuses : h.document input = .error f) : Outcome h job input (.error f) h.tree
  /-- the output cannot be written -/
  | unwritten {d e} (reads : h.document input = .ok d)
    (fails : (h.tree.write h.cwd input.output (h.code job input d)).1 = .error e) :
    Outcome h job input (.error (.io input.output e)) (h.tree.remove h.cwd input.output)
  | written {d} (reads : h.document input = .ok d)
    (writes : (h.tree.write h.cwd input.output (h.code job input d)).1 = .ok ()) :
    Outcome h job input (.ok input.output)
      (h.tree.write h.cwd input.output (h.code job input d)).2

/-- Processing a file comes to one of the outcomes, and changes the log besides. -/
lemma run_process (h : Machine) (job : Job) (input : Path) :
    ∃ r tree log, h.run (process job input) = (r, { h with tree, log }) ∧
      Outcome h job input r tree := by
  obtain ⟨log, parsed⟩ := run_parseFile h input
  rw [process, run_bind, parsed]
  cases reads : h.document input with
  | error f => exact ⟨_, _, _, rfl, .refused reads⟩
  | ok d =>
    dsimp only
    rw [run_lift_bind, run_now]
    dsimp only
    rw [run_lift_bind, run_write]
    dsimp only
    rw [← code]
    cases outcome : (h.tree.write h.cwd input.output (h.code job input d)).1 with
    | error e =>
      dsimp only
      rw [run_lift_bind, run_remove, FileTree.write_error outcome]
      exact ⟨_, _, log, rfl, .unwritten reads outcome⟩
    | ok u =>
      cases u
      dsimp only
      rw [run_lift_bind, run_log, run_pure]
      dsimp only
      exact ⟨_, _, _, rfl, .written reads outcome⟩

lemma Outcome.unique {r r' : Except Failure Path} {tree tree' : FileTree}
    (o : Outcome h job input r tree) (o' : Outcome h job input r' tree') :
    r = r' ∧ tree = tree' := by
  cases o with
  | refused refuses =>
    cases o' with
    | refused refuses' =>
      rw [refuses, Except.error.injEq] at refuses'
      exact ⟨congrArg _ refuses', rfl⟩
    | unwritten reads | written reads =>
      rw [refuses] at reads
      cases reads
  | unwritten reads fails =>
    cases o' with
    | refused refuses =>
      rw [reads] at refuses
      cases refuses
    | unwritten reads' fails' =>
      rw [reads, Except.ok.injEq] at reads'
      subst reads'
      rw [fails, Except.error.injEq] at fails'
      exact ⟨by rw [fails'], rfl⟩
    | written reads' writes =>
      rw [reads, Except.ok.injEq] at reads'
      subst reads'
      rw [fails] at writes
      cases writes
  | written reads writes =>
    cases o' with
    | refused refuses =>
      rw [reads] at refuses
      cases refuses
    | unwritten reads' fails =>
      rw [reads, Except.ok.injEq] at reads'
      subst reads'
      rw [fails] at writes
      cases writes
    | written reads' =>
      rw [reads, Except.ok.injEq] at reads'
      subst reads'
      exact ⟨rfl, rfl⟩

/-- Every outcome that there can be is the one that processing comes to. -/
lemma Outcome.run {r : Except Failure Path} {tree : FileTree} (o : Outcome h job input r tree) :
    ∃ log, h.run (process job input) = (r, { h with tree, log }) := by
  obtain ⟨r', tree', log, ran, o'⟩ := run_process h job input
  obtain ⟨rfl, rfl⟩ := o.unique o'
  exact ⟨log, ran⟩

/-- A file that is processed holds a document, and the code takes the place of a file or of
nothing. -/
lemma run_process_ok {output : Path} (ran : h.run (process job input) = (.ok output, h')) :
    ∃ d l log, h.document input = .ok d ∧ output = input.output ∧
      h.tree.location? h.cwd input.output = some l ∧ h.tree.Free l ∧
      h' = { h with tree := h.tree.put l (.file (h.code job input d)), log } := by
  obtain ⟨r, tree, log, ran', o⟩ := run_process h job input
  rw [ran, Prod.mk.injEq] at ran'
  obtain ⟨rfl, rfl⟩ := ran'
  cases o with
  | @written d reads writes =>
    obtain ⟨l, leads, free, put⟩ := FileTree.write_ok (not_isEmpty_code h job input d) writes
    rw [put]
    exact ⟨d, l, log, reads, rfl, leads, free, rfl⟩

/-! ## A list of files -/

/-- Files are processed in order, each on the machine that the ones before it leave behind, and all
of them have outputs. -/
inductive Processes (job : Job) : Machine → List Path → List Path → Machine → Prop
  | nil {h : Machine} : Processes job h [] [] h
  | cons {h h₁ h' : Machine} {input output : Path} {inputs outputs : List Path}
    (first : h.run (process job input) = (.ok output, h₁))
    (rest : Processes job h₁ inputs outputs h') :
    Processes job h (input :: inputs) (output :: outputs) h'

lemma run_processAll_cons (input : Path) (inputs : List Path) :
    h.run (processAll job (input :: inputs)) =
      match h.run (process job input) with
      | (.ok output, h₁) =>
        match h₁.run (processAll job inputs) with
        | (.ok outputs, h₂) => (.ok (output :: outputs), h₂)
        | (.error f, h₂) => (.error f, h₂)
      | (.error f, h₁) => (.error f, h₁) := by
  rw [processAll, List.mapM_cons, run_bind]
  cases h.run (process job input) with
  | mk r h₁ =>
    cases r with
    | error f => rfl
    | ok output =>
      dsimp only
      rw [run_bind, ← processAll]
      cases h₁.run (processAll job inputs) with
      | mk r h₂ => cases r <;> rfl

/-- A list of files is processed if each file in its turn is. -/
lemma run_processAll_ok_iff {inputs outputs : List Path} :
    h.run (processAll job inputs) = (.ok outputs, h') ↔ Processes job h inputs outputs h' := by
  induction inputs generalizing h outputs with
  | nil =>
    constructor
    · intro ran
      cases ran
      exact .nil
    · intro p
      cases p
      rfl
  | cons input inputs ih =>
    rw [run_processAll_cons]
    constructor
    · intro ran
      cases first : h.run (process job input) with
      | mk r h₁ =>
        rw [first] at ran
        cases r with
        | error f => cases ran
        | ok output =>
          cases rest : h₁.run (processAll job inputs) with
          | mk r h₂ =>
            dsimp only at ran
            rw [rest] at ran
            cases r with
            | error f => cases ran
            | ok outputs =>
              cases ran
              exact .cons first (ih.mp rest)
    · intro p
      cases p with
      | cons first rest =>
        rw [first]
        dsimp only
        rw [ih.mpr rest]

/-- Otherwise the first file that fails ends the run, whatever files follow. -/
lemma run_processAll_error_iff {inputs : List Path} {f : Failure} :
    h.run (processAll job inputs) = (.error f, h') ↔
      ∃ before input after outputs h₁, inputs = before ++ input :: after ∧
        Processes job h before outputs h₁ ∧ h₁.run (process job input) = (.error f, h') := by
  induction inputs generalizing h with
  | nil =>
    constructor
    · exact nofun
    · rintro ⟨before, input, after, outputs, h₁, split, -⟩
      cases before <;> cases split
  | cons input inputs ih =>
    rw [run_processAll_cons]
    constructor
    · intro ran
      cases first : h.run (process job input) with
      | mk r h₁ =>
        rw [first] at ran
        cases r with
        | error f =>
          cases ran
          exact ⟨[], input, inputs, [], h, rfl, .nil, first⟩
        | ok output =>
          cases rest : h₁.run (processAll job inputs) with
          | mk r h₂ =>
            dsimp only at ran
            rw [rest] at ran
            cases r with
            | ok outputs => cases ran
            | error f =>
              cases ran
              obtain ⟨before, last, after, outputs, h₂, rfl, p, fails⟩ := ih.mp rest
              exact ⟨input :: before, last, after, output :: outputs, h₂, rfl, .cons first p, fails⟩
    · rintro ⟨before, last, after, outputs, h₁, split, p, fails⟩
      cases p with
      | nil =>
        cases split
        rw [fails]
      | cons first rest =>
        cases split
        rw [first]
        dsimp only
        rw [ih.mpr ⟨_, last, after, _, h₁, rfl, rest, fails⟩]

end EnumGen.Machine
