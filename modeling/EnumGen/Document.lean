import EnumGen.Token

/-!
# Enum definition documents

What a definition file declares: a package and the enum types in it, each with its base type and
its members in the order of their declaration, which is the order of their values.
-/

namespace EnumGen

/-- One member of an enum type. Its tag is the text that stands for it outside the program. -/
structure Member where
  name : String
  tag : String
  deriving DecidableEq, Repr

/-- A member without a tag of its own is shown by its name. -/
def Member.ofName (name : String) : Member :=
  ⟨name, name⟩

/-- An enum type and its members. -/
structure EnumType where
  name : String
  base : IntType
  members : List Member
  deriving DecidableEq, Repr

/-- A whole definition file. -/
structure Document where
  package : String
  enums : List EnumType
  deriving DecidableEq, Repr

/-- The document that declares nothing. -/
def Document.empty : Document :=
  ⟨"", []⟩

end EnumGen
