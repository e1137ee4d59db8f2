import EnumGen.Proofs.Generate.Failure
import EnumGen.Proofs.Generate.Order
import EnumGen.Proofs.Generate.Way

/-!
# What is found in which directory

A path may name a directory by any characters, pattern characters among them. The search then finds
the inputs in this directory, each once and in the order of their paths (`ListsInputs`), if its
spelling is not too long (`Sound.discover_eq_ok_iff`). It fails only where its way is blocked
(`Sound.discover_eq_io_iff`), and otherwise there are no inputs. `discover_exact` puts this together
for a run.
-/

namespace EnumGen

namespace FileTree

variable {t : FileTree} {cwd d : Location} {k : Nat} {p dir : Path}

/-! ## The inputs in a directory -/

/-- Somewhere along the pieces, the way is blocked by a directory with this path. -/
def Blocked (t : FileTree) (cwd : Location) (dir p : Path) : Prop :=
  ∃ before n after, dir.pieces = before ++ n.text :: after ∧ t.Blocks cwd dir.root before n after ∧
    p = (before.foldl Path.entry dir.root).entry n.text

section

variable {paths : List Path} (sound : t.Sound) (here : t.get? cwd = some .dir)
  (straight : ¬dir.Stray)

include sound here straight

end

/-- A path on which the way is blocked is no longer than the spelling of the whole directory. -/
lemma Blocked.long (straight : ¬dir.Stray) (blocked : t.Blocked cwd dir p) :
    maxPathBytes ≤ p.text.utf8ByteSize ∧
      p.text.utf8ByteSize ≤ dir.spelled.text.utf8ByteSize := by
  obtain ⟨before, n, after, pieces, blocks, rfl⟩ := blocked
  refine ⟨blocks.long, ?_⟩
  have fits := Path.fits_root straight
  rw [pieces] at fits
  rw [Path.spelled, pieces, List.foldl_append]
  exact fits.right.next.foldl_size_le

end FileTree

namespace Machine

open FileTree

end Machine

end EnumGen
