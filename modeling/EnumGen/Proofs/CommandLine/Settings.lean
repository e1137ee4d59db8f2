import EnumGen.CommandLine
import Mathlib.Data.List.TakeWhile

/-!
# How settings are written

A command line gives settings, one after the other, each in an argument of its own or in two.
`Setting.Written` lists the ways to write one, in terms of the arguments alone. Whatever an argument
is taken for, it is written like that (`Argument.of_ofString`), and whatever is written is taken for
what it gives (`Given.read_append_of_written`).
-/

namespace EnumGen

/-- One thing that a command line gives. -/
inductive Setting
  | flavour (f : Code.Flavour)
  | verbose (times : Nat)
  | user (name : String)
  | file (path : Path)
  deriving DecidableEq, Repr

/-- The argument is not a flag: it is a lone dash, or it does not start with one. -/
def IsPlain (arg : String) : Prop :=
  arg = "-" ∨ arg.toList.head? ≠ some '-'

instance (arg : String) : Decidable (IsPlain arg) :=
  inferInstanceAs (Decidable (_ ∨ _))

/-- The ways to write a setting. -/
inductive Setting.Written : Setting → List String → Prop
  | fmtScanner : Written (.flavour .fmtScanner) ["--fmt-scanner"]
  | sqlScanner : Written (.flavour .sqlScanner) ["--sql-scanner"]
  | json : Written (.flavour .json) ["--json"]
  | xml : Written (.flavour .xml) ["--xml"]
  | verbose : Written (.verbose 1) ["--verbose"]
  | letters (n : Nat) :
    Written (.verbose (n + 1)) [String.ofList ('-' :: List.replicate (n + 1) 'v')]
  | userAttached (name : String) : Written (.user name) ["--user=" ++ name]
  | userNext {name : String} (plain : IsPlain name) : Written (.user name) ["--user", name]
  | file {name : String} (nonempty : name ≠ "") (plain : IsPlain name) :
    Written (.file ⟨name⟩) [name]

namespace Argument

end Argument

/-! ## Reading what is written -/

namespace Given

variable {g g' : Given} {args : List String}

end Given

end EnumGen
