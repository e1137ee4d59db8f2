import EnumGen.Code.Flavour
import EnumGen.Document.Diagnostics
import EnumGen.Files.Resolve

/-!
# What a run reports

A run leaves a log of `Event`s, each with a level and the part of the program that it comes from,
and it may end in a `Failure`.
-/

namespace EnumGen

/-- How important a log record is. -/
inductive Level
  | error
  | warn
  | info
  | debug
  | trace
  deriving DecidableEq, Repr

namespace Level

/-- Every level, the most important first. -/
def all : List Level :=
  [error, warn, info, debug, trace]

/-- The name of the level. -/
def name : Level → String
  | error => "ERROR"
  | warn => "WARN"
  | info => "INFO"
  | debug => "DEBUG"
  | trace => "TRACE"

/-- How many levels are at least as important. -/
def rank : Level → Nat
  | error => 1
  | warn => 2
  | info => 3
  | debug => 4
  | trace => 5

end Level

/-- One record of the log. -/
inductive Event
  /-- something happened while a definition file was read -/
  | parse (event : ParseEvent)
  /-- a directory was searched -/
  | searched (count : Nat) (pattern : String)
  /-- a file was generated -/
  | generated (input output : Path) (enums : Nat) (flavour : Code.Flavour)
  deriving DecidableEq, Repr

namespace Event

/-- The level of the record. -/
def level : Event → Level
  | parse (.pulled _ _) => .trace
  | parse _ => .debug
  | searched _ _ => .debug
  | generated .. => .info

/-- The part of the program that a record comes from. -/
def origin : Event → String
  | parse (.pulled _ _) => "enums::parser::lexer"
  | parse (.failed _) => "enums::parser::parse"
  | parse (.closed _ _) => "enums::parser::declarations"
  | searched _ _ => "enums::driver"
  | generated .. => "enums::driver"

/-- The record in words. -/
def message : Event → String
  | parse e => e.message
  | searched n pattern => "found " ++ toString n ++ " input(s) matching " ++ pattern
  | generated input output n flavour =>
    input.text ++ " -> " ++ output.text ++ " (" ++ toString n ++ " enum types, " ++ flavour.name ++
      " generator)"

end Event

/-- Why a run fails. -/
inductive Failure
  /-- a file or directory cannot be used -/
  | io (path : Path) (error : FileError)
  /-- a definition file is not a document -/
  | parse (path : Path) (error : ParseError)
  /-- there is nothing to process -/
  | noInputs
  deriving DecidableEq, Repr

/-- The failure in words. -/
def Failure.message : Failure → String
  | io path e => path.text ++ ": " ++ e.message
  | parse path e => path.text ++ ":" ++ e.message
  | noInputs => "no .enum files found"

end EnumGen
