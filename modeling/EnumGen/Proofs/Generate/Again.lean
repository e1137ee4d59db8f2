import EnumGen.CommandLine
import EnumGen.Proofs.Generate.Outputs

/-!
# Running again

After a run the inputs in a directory of directories and files are the same, and so is what they
hold, since outputs have other names. What becomes of one input is then `Settled` before the run: it
fails, or its code is put in one place (`exists_settled_process`). This passes to the list of inputs
and to the run as a whole, which thus puts a fixed list of files, of which only the time in the
headers is not fixed. To put them twice is to put them once (`FileTree.generate_again`), so the
second run comes to the same result and leaves the same tree, but for that time (`run_again`).
-/

namespace EnumGen

/-- Code that a run generates. -/
structure Generated where
  location : Location
  input : Path
  document : Document

/-- The code at a given time. -/
def Generated.content (g : Generated) (job : Job) (clock : Code.Stamp) : ByteArray :=
  (Code.render job.flavour ⟨g.input.text, job.user, clock⟩ g.document).toUTF8

namespace FileTree

variable {t t' : FileTree} {cwd d : Location} {k : Nat} {p : Path} {n : Name} {job : Job}

/-! ## Files that are put -/

/-- The tree after all the code has been put in its place. -/
def generate (t : FileTree) (job : Job) (clock : Code.Stamp) (gs : List Generated) : FileTree :=
  gs.foldl (fun t g => t.put g.location (.file (g.content job clock))) t

lemma generate_append (t : FileTree) (job : Job) (clock : Code.Stamp) (gs gs' : List Generated) :
    t.generate job clock (gs ++ gs') = (t.generate job clock gs).generate job clock gs' :=
  List.foldl_append

end FileTree

namespace Machine

variable {α β : Type} {h h₀ : Machine} {d : Location} {k : Nat} {p : Path} {n : Name} {job : Job}
  {inputs : List Path} {x : ExceptT Failure (StateM Machine) α}
  {f : α → ExceptT Failure (StateM Machine) β} {a : α} {r : Except Failure β} {e : Failure}
  {gs gs' : List Generated}

/-! ## What becomes of inputs -/

/-- Outputs may have been written in the directory since. -/
structure Later (d : Location) (h₀ h : Machine) : Prop where
  cwd : h.cwd = h₀.cwd
  grown : FileTree.Grown d h₀.tree h.tree

lemma Later.refl (d : Location) (h : Machine) : Later d h h :=
  ⟨rfl, .refl d h.tree⟩

/-- In all later states the program comes to the same result, and all that it does is to put the
same code in the same places. -/
structure Settled (d : Location) (h₀ : Machine) (job : Job)
    (program : ExceptT Failure (StateM Machine) α) (r : Except Failure α) (gs : List Generated) :
    Prop where
  some_ : ∀ g ∈ gs, g.location ≠ []
  runs : ∀ h, Later d h₀ h → FileTree.Grown d h₀.tree (h.tree.generate job h.clock gs) ∧
    ∃ log, h.run program = (r, { h with tree := h.tree.generate job h.clock gs, log })

lemma Settled.pure (a : α) : Settled d h₀ job (pure a) (.ok a) [] := by
  constructor
  · exact nofun
  · intro h later
    exact ⟨later.grown, h.log, rfl⟩

lemma Settled.bind (first : Settled d h₀ job x (.ok a) gs) (rest : Settled d h₀ job (f a) r gs') :
    Settled d h₀ job (x >>= f) r (gs ++ gs') := by
  constructor
  · exact List.forall_mem_append.mpr ⟨first.some_, rest.some_⟩
  · intro h later
    obtain ⟨grown, log, ran⟩ := first.runs h later
    obtain ⟨grown', log', ran'⟩ := rest.runs { h with tree := h.tree.generate job h.clock gs, log }
      ⟨later.cwd, grown⟩
    rw [FileTree.generate_append]
    refine ⟨grown', log', ?_⟩
    rw [run_bind, ran]
    exact ran'

end Machine

end EnumGen
