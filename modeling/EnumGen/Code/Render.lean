import EnumGen.Code.Flavour
import EnumGen.Code.Literal
import EnumGen.Code.Stamp
import EnumGen.Document

/-!
# The generated file

A document is rendered as a list of lines, each of which ends in a newline: a header comment, the
package clause with the imports of the flavour, and for every enum type its declarations. The text
of a tag goes into string literals only, by `literal`; all other names are written as they are.
-/

namespace EnumGen.Code

/-- What the header of a generated file records. -/
structure Origin where
  filename : String
  user : String
  stamp : Stamp
  deriving DecidableEq, Repr

/-- The name of the constant for the value that no member has. -/
def zeroName (e : EnumType) : String :=
  e.name ++ "_Zero_"

/-- The name of the constant for a member. -/
def memberName (e : EnumType) (m : Member) : String :=
  e.name ++ "_" ++ m.name

/-- The comment that opens the file, and the blank line after it. -/
def headerLines (o : Origin) : List String :=
  ["// DO NOT EDIT.",
    "//",
    "// Generated: " ++ o.stamp.text,
    "// From:      " ++ o.filename,
    "// By:        " ++ o.user,
    "//",
    ""]

/-- The import declaration, if anything is imported. -/
def importLines (imports : List String) : List String :=
  match imports with
  | [] => []
  | _ => ["", "import ("] ++ imports.map (fun i => "\t\"" ++ i ++ "\"") ++ [")"]

/-- The type declaration. -/
def typeLines (e : EnumType) : List String :=
  ["type " ++ e.name ++ " " ++ e.base.name]

/-- The constants, numbered from zero in the order of declaration. -/
def constLines (e : EnumType) : List String :=
  ["const (", "\t" ++ zeroName e ++ " " ++ e.name ++ " = iota"] ++
    e.members.map (fun m => "\t" ++ memberName e m) ++ [")"]

/-- The method that turns a value into the tag of its member. -/
def stringLines (e : EnumType) : List String :=
  ["func (v " ++ e.name ++ ") String() string \x7b",
    "\tswitch v \x7b",
    "\tcase " ++ zeroName e ++ ":",
    "\t\treturn \"*!!!* UNINITIALIZED " ++ e.name ++ " VALUE *!!!*\""] ++
  e.members.flatMap (fun m =>
    ["\tcase " ++ memberName e m ++ ":",
      "\t\treturn " ++ literal m.tag]) ++
  ["\tdefault:",
    "\t\treturn \"*!* INVALID " ++ e.name ++ " VALUE *!*\"",
    "\t\x7d",
    "\x7d"]

/-- The method that turns a tag into the value of its member, and `0` into the zero value. -/
def scanStringLines (e : EnumType) : List String :=
  ["",
    "func (v *" ++ e.name ++ ") scanString(s string) error \x7b",
    "\tswitch s \x7b",
    "\tcase \"0\":",
    "\t\t*v = " ++ zeroName e] ++
  e.members.flatMap (fun m =>
    ["\tcase " ++ literal m.tag ++ ":",
      "\t\t*v = " ++ memberName e m]) ++
  ["\tdefault:",
    "\t\treturn fmt.Errorf(\"*!* INVALID " ++ e.name ++ " LITERAL: %q *!*\", s)",
    "\t\x7d",
    "\treturn nil",
    "\x7d"]

/-- Reading a value from formatted input. -/
def fmtScanLines (e : EnumType) : List String :=
  ["",
    "func (v *" ++ e.name ++ ") Scan(state fmt.ScanState, verb rune) error \x7b",
    "\ttoken, err := state.Token(true, nil)",
    "\tif err != nil \x7b",
    "\t\treturn err",
    "\t\x7d",
    "\treturn v.scanString(string(token))",
    "\x7d"]

/-- Reading a value from a database column. -/
def sqlScanLines (e : EnumType) : List String :=
  ["",
    "func (v *" ++ e.name ++ ") Scan(src interface\x7b\x7d) error \x7b",
    "\tswitch s := src.(type) \x7b",
    "\tcase string:",
    "\t\treturn v.scanString(s)",
    "\tcase []byte:",
    "\t\treturn v.scanString(string(s))",
    "\tdefault:",
    "\t\treturn fmt.Errorf(\"*!* CANNOT SCAN %T INTO " ++ e.name ++ " *!*\", src)",
    "\t\x7d",
    "\x7d"]

/-- Writing and reading a value as a JSON string. -/
def jsonLines (e : EnumType) : List String :=
  ["",
    "func (v " ++ e.name ++ ") MarshalJSON() ([]byte, error) \x7b",
    "\treturn json.Marshal(v.String())",
    "\x7d",
    "",
    "func (v *" ++ e.name ++ ") UnmarshalJSON(data []byte) error \x7b",
    "\tvar s string",
    "\tif err := json.Unmarshal(data, &s); err != nil \x7b",
    "\t\treturn err",
    "\t\x7d",
    "\treturn v.scanString(s)",
    "\x7d"]

/-- Writing and reading a value as an XML element. -/
def xmlLines (e : EnumType) : List String :=
  ["",
    "func (v " ++ e.name ++ ") MarshalXML(e *xml.Encoder, start xml.StartElement) error \x7b",
    "\treturn e.EncodeElement(v.String(), start)",
    "\x7d",
    "",
    "func (v *" ++ e.name ++ ") UnmarshalXML(d *xml.Decoder, start xml.StartElement) error \x7b",
    "\tvar s string",
    "\tif err := d.DecodeElement(&s, &start); err != nil \x7b",
    "\t\treturn err",
    "\t\x7d",
    "\treturn v.scanString(s)",
    "\x7d"]

/-- What every flavour declares for an enum type. -/
def basicLines (e : EnumType) : List String :=
  typeLines e ++ [""] ++ constLines e ++ [""] ++ stringLines e

/-- What a flavour declares beyond that. -/
def methodLines (f : Flavour) (e : EnumType) : List String :=
  match f with
  | .std => []
  | .fmtScanner => scanStringLines e ++ fmtScanLines e
  | .sqlScanner => scanStringLines e ++ sqlScanLines e
  | .json => scanStringLines e ++ jsonLines e
  | .xml => scanStringLines e ++ xmlLines e

/-- The lines of an enum type, after a blank one. -/
def enumLines (f : Flavour) (e : EnumType) : List String :=
  [""] ++ basicLines e ++ methodLines f e

/-- The lines of the generated file. -/
def lines (f : Flavour) (o : Origin) (d : Document) : List String :=
  headerLines o ++ ["package " ++ d.package] ++ importLines f.imports ++
    d.enums.flatMap (enumLines f)

/-- The generated file. -/
def render (f : Flavour) (o : Origin) (d : Document) : String :=
  String.join ((lines f o d).map (· ++ "\n"))

end EnumGen.Code
