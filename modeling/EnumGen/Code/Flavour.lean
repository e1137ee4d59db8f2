/-!
# Flavours of generated code

Every generated file has the enum types, their constants and a `String` method. A flavour adds the
methods by which a value is read back.
-/

namespace EnumGen.Code

/-- What is generated beside the types, the constants and the `String` methods. -/
inductive Flavour
  /-- nothing -/
  | std
  /-- a `Scan` method for formatted input -/
  | fmtScanner
  /-- a `Scan` method for database columns -/
  | sqlScanner
  /-- JSON marshalling -/
  | json
  /-- XML marshalling -/
  | xml
  deriving DecidableEq, Repr, Inhabited

namespace Flavour

/-- Every flavour. -/
def all : List Flavour :=
  [std, fmtScanner, sqlScanner, json, xml]

/-- The name of the flavour. -/
def name : Flavour → String
  | std => "std"
  | fmtScanner => "scan"
  | sqlScanner => "sql"
  | json => "json"
  | xml => "xml"

/-- The packages that the generated file imports. -/
def imports : Flavour → List String
  | std => []
  | fmtScanner | sqlScanner => ["fmt"]
  | json => ["encoding/json", "fmt"]
  | xml => ["encoding/xml", "fmt"]

theorem mem_all (f : Flavour) : f ∈ all := by
  cases f <;> decide

end Flavour

end EnumGen.Code
