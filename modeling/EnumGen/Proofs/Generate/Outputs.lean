import EnumGen.Proofs.Files.Output
import EnumGen.Proofs.Generate.Failure
import EnumGen.Proofs.Generate.Inputs
import Mathlib.Data.List.Forall2
import Mathlib.Data.List.Nodup

/-!
# Outputs of a whole directory

Files are processed one after another on a tree that changes on the way. If no output takes the
place of an input or of another output, each one holds in the end what is generated from its own
input (`Processes.outputs_hold`). The inputs in a directory without links keep apart in this way,
with one exception (`outputs_kept_iff`).
-/

namespace EnumGen

namespace Machine

variable {h h' h₁ : Machine} {job : Job} {inputs outputs : List Path}

/-! ## Files that keep apart -/

/-- No output takes the place of an input or of another output. -/
structure Apart (h : Machine) (inputs : List Path) : Prop where
  sources : ∀ i ∈ inputs, ∀ j ∈ inputs,
    h.tree.location? h.cwd i.output ≠ h.tree.location? h.cwd j
  targets : inputs.Pairwise fun i j =>
    h.tree.location? h.cwd i.output ≠ h.tree.location? h.cwd j.output

lemma Apart.tail {input : Path} {t : FileTree} {log : Array Event}
    (apart : h.Apart (input :: inputs)) (alike : h.tree.Alike t) :
    Apart { h with tree := t, log } inputs := by
  constructor
  · intro i at_ j at_'
    rw [alike.location?, alike.location?]
    exact apart.sources i (.tail _ at_) j (.tail _ at_')
  · refine (List.pairwise_cons.mp apart.targets).2.imp ?_
    intro i j other
    rw [alike.location?, alike.location?]
    exact other

/-- All inputs lead somewhere, and so do their outputs. -/
lemma Processes.leads (p : Processes job h inputs outputs h') {input : Path} (at_ : input ∈ inputs) :
    ∃ i o, h.tree.location? h.cwd input = some i ∧ h.tree.location? h.cwd input.output = some o := by
  induction p with
  | nil => cases at_
  | @cons h h₁ _ first _ _ _ ran _ ih =>
    obtain ⟨d, l, log, reads, -, target, free, rfl⟩ := run_process_ok ran
    obtain ⟨_, read, -⟩ := document_eq_ok_iff.mp reads
    obtain ⟨k, source, -⟩ := FileTree.location?_of_read read
    cases at_ with
    | head => exact ⟨k, l, source, target⟩
    | tail _ at_ =>
      have alike := FileTree.alike_put free (h.code job first d)
      obtain ⟨i, o, source', target'⟩ := ih at_
      rw [alike.location?] at source' target'
      exact ⟨i, o, source', target'⟩

/-- What no output takes the place of reads as before. -/
lemma Processes.read {q : Path} {k : Location} (p : Processes job h inputs outputs h')
    (leads : h.tree.location? h.cwd q = some k)
    (apart : ∀ input ∈ inputs, h.tree.location? h.cwd input.output ≠ some k) :
    h'.tree.read h'.cwd q = h.tree.read h.cwd q := by
  induction p with
  | nil => rfl
  | @cons h h₁ _ first _ _ _ ran _ ih =>
    obtain ⟨d, l, log, -, -, target, free, rfl⟩ := run_process_ok ran
    have alike := FileTree.alike_put free (h.code job first d)
    rw [List.forall_mem_cons, target] at apart
    -- every path leads where it led before, so the hypotheses pass on to the rest of the run
    rw [ih, FileTree.read_put free _ leads, if_neg]
    · rintro rfl
      exact apart.1 rfl
    · rw [alike.location?, leads]
    · intro input at_
      rw [alike.location?]
      exact apart.2 input at_

/-- The outputs of files that keep apart hold what is generated from their own inputs. -/
lemma Processes.outputs_hold (p : Processes job h inputs outputs h') (apart : h.Apart inputs) :
    ∀ input ∈ inputs, ∃ d, h.Holds input d ∧
      h'.tree.read h'.cwd input.output = .ok (h.code job input d) := by
  induction p with
  | nil => exact nofun
  | @cons h h₁ h' first _ inputs _ ran rest ih =>
    obtain ⟨d, l, log, reads, rfl, target, free, rfl⟩ := run_process_ok ran
    have alike := FileTree.alike_put free (h.code job first d)
    have others := (List.pairwise_cons.mp apart.targets).1
    rw [List.forall_mem_cons]
    constructor
    · -- the first output is left alone by the others
      refine ⟨d, document_eq_ok_iff.mp reads, ?_⟩
      rw [rest.read (k := l), FileTree.read_put free _ target, if_pos rfl]
      · rw [alike.location?, target]
      · intro input at_
        rw [alike.location?, ← target]
        exact (others input at_).symm
    · intro input at_
      -- the first output has left the other inputs alone
      obtain ⟨d', ⟨source, read, parsed⟩, holds⟩ := ih (apart.tail alike) input at_
      obtain ⟨i, -, leads, -⟩ := rest.leads at_
      rw [alike.location?] at leads
      refine ⟨d', ⟨source, ?_, parsed⟩, holds⟩
      rw [FileTree.read_put free _ leads, if_neg] at read
      · exact read
      · rintro rfl
        exact apart.sources first (.head _) input (.tail _ at_) (target.trans leads.symm)

/-! ## Files that are found -/

variable {names : List String} {dir p : Path}

/-- One input is named by the extension alone, and one beside it by the extension twice. -/
def Clash (inputs : List Path) : Prop :=
  ∃ p : Path, p.entry ".enum" ∈ inputs ∧ p.entry ".enum.enum" ∈ inputs

lemma Found.placed (f : Found names) (plain : ∀ n ∈ names, h.tree.Unlinked h.cwd (p.entry n))
    (ran : Processes job h (names.map p.entry) outputs h') {n : String} (at_ : n ∈ names) :
    ∃ k d stem i o, n.toList = stem ++ inputExtension ∧
      h.tree.directory? h.cwd p.before = some (k, d) ∧
      h.tree.location? h.cwd (p.entry n) = some i ∧
      h.tree.location? h.cwd (p.entry n).output = some o ∧ FileTree.Placed d stem i o := by
  have name := f.isName n at_
  obtain ⟨stem, is⟩ := List.isSuffixOf_iff_suffix.mp (f.isInput n at_)
  obtain ⟨i, o, source, target⟩ := ran.leads (List.mem_map_of_mem at_)
  have unlinked := plain n at_
  have spelled := p.entry_eq_into name
  rw [← is] at name spelled
  rw [spelled] at source target unlinked ⊢
  obtain ⟨k, d, into, placed⟩ :=
    FileTree.placed_of_location? p.leading_before name unlinked source target
  exact ⟨k, d, stem, i, o, is.symm, into, source, target, placed⟩

lemma Found.apart (f : Found names) (plain : ∀ n ∈ names, h.tree.Unlinked h.cwd (p.entry n))
    (ran : Processes job h (names.map p.entry) outputs h')
    (noClash : ¬Clash (names.map p.entry)) : h.Apart (names.map p.entry) := by
  constructor
  · simp only [List.forall_mem_map]
    intro a at_ b at_'
    obtain ⟨k, d, stem, i, o, -, into, -, target, placed⟩ := f.placed plain ran at_
    obtain ⟨k', d', stem', i', o', -, into', source', -, placed'⟩ := f.placed plain ran at_'
    cases into.symm.trans into'
    rw [target, source']
    intro same
    exact placed.target_ne_source placed' (Option.some.inj same)
  · rw [List.pairwise_map]
    refine f.nodup.imp_of_mem ?_
    intro a b at_ at_' other same
    obtain ⟨k, d, stem, i, o, is, into, -, target, placed⟩ := f.placed plain ran at_
    obtain ⟨k', d', stem', i', o', is', into', -, target', placed'⟩ := f.placed plain ran at_'
    cases into.symm.trans into'
    cases target.symm.trans (same.trans target')
    have bare {c : String} (is : c.toList = [] ++ inputExtension) : c = ".enum" :=
      String.toList_inj.mp is
    have twice {c : String} (is : c.toList = inputExtension ++ inputExtension) : c = ".enum.enum" :=
      String.toList_inj.mp (is.trans rfl)
    obtain rfl | ⟨rfl, rfl⟩ | ⟨rfl, rfl⟩ := outputPiece_inj (placed.outputPiece_eq placed')
    · exact other (String.toList_inj.mp (is.trans is'.symm))
    · exact noClash ⟨p, List.mem_map.mpr ⟨a, at_, by rw [bare is]⟩,
        List.mem_map.mpr ⟨b, at_', by rw [twice is']⟩⟩
    · exact noClash ⟨p, List.mem_map.mpr ⟨b, at_', by rw [bare is']⟩,
        List.mem_map.mpr ⟨a, at_, by rw [twice is]⟩⟩

lemma output_eq_of_clash (p : Path) : (p.entry ".enum").output = (p.entry ".enum.enum").output := by
  have bare : p.entry ".enum" = .into p.before ([] ++ inputExtension) :=
    p.entry_eq_into (by decide)
  have twice : p.entry ".enum.enum" = .into p.before (inputExtension ++ inputExtension) :=
    p.entry_eq_into (by decide)
  rw [bare, twice, Path.output_into p.leading_before (by decide),
    Path.output_into p.leading_before (by decide)]
  rfl

/-- The inputs that are found in a directory without links, if all of them are processed, have
outputs of their own, each with the code of its own input, unless one input is named by the
extension alone and another one by the extension twice. -/
theorem outputs_kept_iff (found : h.run (discover [] dir) = (.ok inputs, h₁))
    (plain : ∀ input ∈ inputs, h.tree.Unlinked h.cwd input)
    (ran : h₁.run (processAll job inputs) = (.ok outputs, h')) :
    (outputs.Nodup ∧ List.Forall₂ (fun input output => ∃ d, h.Holds input d ∧
      h'.tree.read h'.cwd output = .ok (h.code job input d)) inputs outputs) ↔ ¬Clash inputs := by
  obtain ⟨⟨log, rfl⟩, p, names, rfl, f⟩ := run_discover found
  rw [run_processAll_ok_iff] at ran
  have all := ran.outputs
  subst all
  constructor
  · rintro ⟨nodup, -⟩ ⟨q, bare, twice⟩
    have same := List.inj_on_of_nodup_map nodup bare twice (output_eq_of_clash q)
    rw [q.entry_eq_into (by decide), q.entry_eq_into (by decide), Path.into, Path.into,
      Path.mk.injEq, String.ofList_inj, List.append_cancel_left_eq] at same
    exact absurd same (by decide)
  · intro noClash
    have apart := f.apart (h := { h with log }) (List.forall_mem_map.mp plain) ran noClash
    constructor
    · refine List.pairwise_map.mpr (apart.targets.imp ?_)
      intro i j other same
      exact other (congrArg _ same)
    · rw [List.forall₂_map_right_iff, List.forall₂_same]
      exact ran.outputs_hold apart

/-! ## Two files in one directory -/

/-- Two definition files in an otherwise empty directory. -/
def pair (n n' : Name) : Machine where
  tree := (FileTree.empty.put [n'] (.file "package q".toUTF8)).put [n] (.file "package p".toUTF8)
  cwd := []
  clock := ⟨2015, 3, 7, 9, 5, 1⟩
  log := #[]

lemma pair_cases {l : Location} {e : Entry} (n n' : Name)
    (found : (pair n n').tree.get? l = some e) :
    (l = [] ∧ e = .dir) ∨ ∃ m content, l = [m] ∧ e = .file content := by
  rw [pair, FileTree.get?_put, FileTree.get?_put] at found
  split at found
  · cases found
    exact .inl ⟨‹_›, rfl⟩
  · split at found
    · cases found
      exact .inr ⟨n, _, ‹_›, rfl⟩
    · split at found
      · cases found
        exact .inr ⟨n', _, ‹_›, rfl⟩
      · rw [FileTree.get?, if_neg ‹_›] at found
        cases found

lemma unlinked_pair (n n' : Name) (p : Path) : (pair n n').tree.Unlinked (pair n n').cwd p := by
  intro _ d _ _ m target found
  obtain ⟨-, is⟩ | ⟨_, _, -, is⟩ := pair_cases n n' found <;> cases is

/-- Both files are processed if the first output leaves the second file alone. -/
lemma run_pair (job : Job) (n n' m m' : Name) (log : Array Event)
    (short : ∀ k ∈ [n, n', m, m'], k.text.utf8ByteSize ≤ maxNameBytes)
    (other : n' ≠ n) (apart : n' ≠ m)
    (output : Path.output ⟨n.text⟩ = ⟨m.text⟩) (output' : Path.output ⟨n'.text⟩ = ⟨m'.text⟩) :
    ∃ h', Machine.run { pair n n' with log } (processAll job [⟨n.text⟩, ⟨n'.text⟩]) =
        (.ok [⟨m.text⟩, ⟨m'.text⟩], h') ∧
      h'.tree.read h'.cwd ⟨m'.text⟩ = .ok ((pair n n').code job ⟨n'.text⟩ ⟨"q", []⟩) := by
  simp only [List.forall_mem_cons] at short
  obtain ⟨short, short', shortOut, shortOut', -⟩ := short
  have ne {k k' : Name} (differ : k' ≠ k) : [k'] ≠ [k] := fun is => differ (List.cons.inj is).1
  have source : (pair n n').tree.get? [n] = some (.file "package p".toUTF8) :=
    FileTree.get?_put_self (List.cons_ne_nil _ _) _
  have source' : (pair n n').tree.get? [n'] = some (.file "package q".toUTF8) := by
    rw [pair, FileTree.get?_put_of_ne (ne other)]
    exact FileTree.get?_put_self (List.cons_ne_nil _ _) _
  have free (k : Name) : (pair n n').tree.Free [k] := by
    apply FileTree.Free.put
    apply FileTree.Free.put
    exact .inl rfl
  have parsed : Document.parse "package p" = .ok ⟨"p", []⟩ := by cbv
  have parsed' : Document.parse "package q" = .ok ⟨"q", []⟩ := by cbv
  obtain ⟨log₁, first⟩ := run_process_name (h := { pair n n' with log }) job
    (holds_name short source parsed) output shortOut (free m)
  have left (content : ByteArray) : ((pair n n').tree.put [m] (.file content)).get? [n'] =
      some (.file "package q".toUTF8) :=
    (FileTree.get?_put_of_ne (ne apart) _).trans source'
  obtain ⟨log₂, second⟩ := run_process_name
    (h := ⟨(pair n n').tree.put [m] (.file ((pair n n').code job ⟨n.text⟩ ⟨"p", []⟩)), [],
      (pair n n').clock, log₁⟩)
    job (holds_name short' (left _) parsed') output' shortOut' ((free m').put _)
  refine ⟨_, run_processAll_ok_iff.mpr (.cons first (.cons second .nil)), ?_⟩
  exact FileTree.read_put_name shortOut'

def bareFile : Name := ⟨".enum", by decide⟩

def twiceFile : Name := ⟨".enum.enum", by decide⟩

/-- Two inputs that are found in a directory without links have one output. The code of the second
one is there in the end, and that of the first one is lost. -/
theorem outputs_kept_clash :
    ∃ inputs h₁ outputs h₂, (pair bareFile twiceFile).run (discover [] .here) = (.ok inputs, h₁) ∧
      (∀ input ∈ inputs, (pair bareFile twiceFile).tree.Unlinked [] input) ∧
      h₁.run (processAll ⟨.std, "me"⟩ inputs) = (.ok outputs, h₂) ∧ ¬outputs.Nodup ∧
      h₂.tree.read h₂.cwd ⟨".enum.go"⟩ =
        .ok ((pair bareFile twiceFile).code ⟨.std, "me"⟩ ⟨".enum.enum"⟩ ⟨"q", []⟩) := by
  have output : Path.output ⟨".enum"⟩ = ⟨".enum.go"⟩ := by decide
  have output' : Path.output ⟨".enum.enum"⟩ = ⟨".enum.go"⟩ := by decide
  obtain ⟨log, found⟩ := run_discover_here (h := pair bareFile twiceFile)
    [".enum", ".enum.enum"] rfl (by cbv) (by simp)
  obtain ⟨h₂, ran, read⟩ := run_pair ⟨.std, "me"⟩ bareFile twiceFile ⟨".enum.go", by decide⟩
    ⟨".enum.go", by decide⟩ log (by decide) (by decide) (by decide) output output'
  exact ⟨_, _, _, h₂, found, fun input _ => unlinked_pair _ _ input, ran, by decide, read⟩

def secondFile : Name := ⟨"b.enum", by decide⟩

/-- Both outputs of two files with different stems are kept. -/
theorem outputs_kept_pair :
    ∃ inputs h₁ outputs h₂, (pair enumFile secondFile).run (discover [] .here) = (.ok inputs, h₁) ∧
      (∀ input ∈ inputs, (pair enumFile secondFile).tree.Unlinked [] input) ∧
      h₁.run (processAll ⟨.std, "me"⟩ inputs) = (.ok outputs, h₂) ∧
      outputs = [⟨"a.go"⟩, ⟨"b.go"⟩] ∧ ¬Clash inputs ∧
      List.Forall₂ (fun input output => ∃ d, (pair enumFile secondFile).Holds input d ∧
        h₂.tree.read h₂.cwd output =
          .ok ((pair enumFile secondFile).code ⟨.std, "me"⟩ input d)) inputs outputs := by
  have output : Path.output ⟨"a.enum"⟩ = ⟨"a.go"⟩ := by decide
  have output' : Path.output ⟨"b.enum"⟩ = ⟨"b.go"⟩ := by decide
  obtain ⟨log, found⟩ := run_discover_here (h := pair enumFile secondFile)
    ["a.enum", "b.enum"] rfl (by cbv) (by simp)
  obtain ⟨h₂, ran, read⟩ := run_pair ⟨.std, "me"⟩ enumFile secondFile goFile
    ⟨"b.go", by decide⟩ log (by decide) (by decide) (by decide) output output'
  have noClash : ¬Clash [⟨"a.enum"⟩, ⟨"b.enum"⟩] := by
    rintro ⟨p, -, twice⟩
    have long {s : String} (is : p.entry ".enum.enum" = ⟨s⟩) : 10 ≤ s.toList.length := by
      rw [p.entry_eq_into (by decide), Path.into, Path.mk.injEq] at is
      rw [← is, String.toList_ofList, List.length_append]
      exact Nat.le_add_left _ _
    rw [List.mem_cons, List.mem_singleton] at twice
    obtain is | is := twice <;> exact absurd (long is) (by decide)
  have plain : ∀ input ∈ [⟨"a.enum"⟩, ⟨"b.enum"⟩],
      (pair enumFile secondFile).tree.Unlinked [] input :=
    fun input _ => unlinked_pair enumFile secondFile input
  have kept := (outputs_kept_iff found plain ran).mpr noClash
  exact ⟨_, _, _, h₂, found, plain, ran, rfl, noClash, kept.2⟩

end Machine

end EnumGen
