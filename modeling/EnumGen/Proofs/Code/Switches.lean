import EnumGen.Proofs.Code.Methods
import Mathlib.Data.Char

/-!
# The switches of a generated file

The methods of a generated file that turn values into tags and tags into values are each one switch.
A `Form` says how such a method is laid out, and `Form.switches?` reads the switches of all methods
in the form from the text of the file: labels and statements case by case, literals unquoted, a
default case at the end. Nothing else may stand in such a method.

For a well-formed document the switches that are read are `stringSwitch` and `scanSwitch` of its
enum types (`switches?_stringForm`, `switches?_scanForm`), whatever the tags are.
-/

namespace EnumGen.Code

/-! ## Reading a switch -/

/-- A switch over the receiver's values or over texts. The first case with a label counts. -/
structure Switch where
  receiver : String
  cases : List (String × String)
  deriving DecidableEq, Repr

/-- What the switch gives for a label. -/
def Switch.find? (s : Switch) (label : String) : Option String :=
  s.cases.lookup label

/-- How a method is laid out that consists of a switch. -/
structure Form where
  /-- what stands behind the receiver in the first line -/
  signature : String
  /-- the line that opens the switch -/
  subject : String
  /-- the text that a label stands for -/
  label? : List Char → Option (List Char)
  /-- what the statement of a case gives -/
  result? : List Char → Option (List Char)
  /-- the statement is one of the default case -/
  isDefault : List Char → Bool
  /-- the lines behind the switch -/
  tail : List String

/-- The text of a literal that is returned. -/
def returned? (statement : List Char) : Option (List Char) :=
  (statement.dropPrefix? "\t\treturn ".toList).bind unquote?

/-- Constants are labels, and literals are returned. -/
def stringForm : Form where
  signature := ") String() string \x7b"
  subject := "\tswitch v \x7b"
  label? := some
  result? := returned?
  isDefault := fun statement => (returned? statement).isSome
  tail := []

/-- Literals are labels, and constants are assigned. The default case returns an error. -/
def scanForm : Form where
  signature := ") scanString(s string) error \x7b"
  subject := "\tswitch s \x7b"
  label? := unquote?
  result? := fun statement => statement.dropPrefix? "\t\t*v = ".toList
  isDefault := fun statement => "\t\treturn fmt.Errorf(".toList.isPrefixOf statement
  tail := ["\treturn nil"]

/-- The label of a case as it is written. -/
def caseLabel? (line : List Char) : Option (List Char) :=
  (line.dropPrefix? "\tcase ".toList).bind (·.dropSuffix? [':'])

namespace Form

/-- One case, from the line with its label and the line with its statement. -/
def case? (form : Form) (line statement : List Char) : Option (String × String) := do
  let label ← (caseLabel? line).bind form.label?
  let result ← form.result? statement
  return (String.ofList label, String.ofList result)

/-- The cases of a switch up to the default case, behind which the method has to end. -/
def cases? (form : Form) : List (List Char) → Option (List (String × String))
  | line :: statement :: ls =>
    if line = "\tdefault:".toList then
      if form.isDefault statement ∧ ls = ("\t\x7d" :: form.tail).map String.toList then some []
      else none
    else do
      let c ← form.case? line statement
      let cs ← form.cases? ls
      return c :: cs
  | _ => none

/-- The switch that a method consists of. -/
def switch? (form : Form) (m : Method) : Option Switch :=
  match m.body with
  | line :: ls =>
    if line = form.subject.toList then (form.cases? ls).map (⟨String.ofList m.receiver, ·⟩)
    else none
  | [] => none

/-- The switches of all methods of a generated file that have the signature of the form. -/
def switches? (form : Form) (text : String) : Option (List Switch) :=
  ((methods text).filter (·.signature = form.signature.toList)).mapM form.switch?

/-! ## Writing a switch -/

/-- Labels and statements that are read in the form as what they were written for. -/
structure Writes (form : Form) (label statement : String → String) : Prop where
  label : ∀ s, form.label? (label s).toList = some s.toList
  statement : ∀ s, form.result? (statement s).toList = some s.toList

/-- The lines of one case. -/
def caseLines (label statement : String → String) (c : String × String) : List String :=
  ["\tcase " ++ label c.1 ++ ":", statement c.2]

/-- The body of a method in the form. -/
def body (form : Form) (label statement : String → String) (cases : List (String × String))
    (last : String) : List String :=
  form.subject :: (cases.flatMap (caseLines label statement) ++
    "\tdefault:" :: last :: "\t\x7d" :: form.tail)

variable {form : Form} {label statement : String → String} (w : form.Writes label statement)

include w

lemma Writes.case? (c : String × String) :
    form.case? ("\tcase " ++ label c.1 ++ ":").toList (statement c.2).toList = some c := by
  have written : caseLabel? ("\tcase " ++ label c.1 ++ ":").toList = some (label c.1).toList := by
    rw [caseLabel?, String.toList_append, String.toList_append, List.append_assoc,
      List.dropPrefix?_append_of_beq _ (beq_self_eq_true _), Option.bind_some,
      List.dropSuffix?_eq_some_iff]
    exact ⟨_, rfl, beq_self_eq_true _⟩
  rw [Form.case?, written, w.statement, Option.bind_some, w.label]
  simp

lemma Writes.cases? {last : String} (ends : form.isDefault last.toList)
    (cs : List (String × String)) :
    form.cases? ((cs.flatMap (caseLines label statement) ++
      "\tdefault:" :: last :: "\t\x7d" :: form.tail).map String.toList) = some cs := by
  induction cs with
  | nil =>
    rw [List.flatMap_nil, List.nil_append, List.map_cons, List.map_cons, Form.cases?, if_pos rfl]
    exact if_pos ⟨ends, rfl⟩
  | cons c cs ih =>
    have ne : ("\tcase " ++ label c.1 ++ ":").toList ≠ "\tdefault:".toList := by simp
    rw [List.flatMap_cons, caseLines, List.append_assoc, List.cons_append, List.cons_append,
      List.nil_append, List.map_cons, List.map_cons, Form.cases?, if_neg ne, w.case?, ih]
    rfl

lemma Writes.switch? {last : String} (ends : form.isDefault last.toList)
    (receiver : String) (signature : List Char) (cs : List (String × String)) :
    form.switch?
        ⟨receiver.toList, signature, (form.body label statement cs last).map String.toList⟩ =
      some ⟨receiver, cs⟩ := by
  rw [Form.switch?, body, List.map_cons]
  simp only [w.cases? ends, if_true, Option.map_some, String.ofList_toList]

omit w

/-- The methods in the form are read part by part, if each part has one of them. -/
lemma switches?_render (f : Flavour) (o : Origin) {d : Document} (wf : d.WellFormed)
    {switch : EnumType → Switch}
    (one : ∀ e ∈ d.enums, ∃ m, form.switch? m = some (switch e) ∧
      ∀ rest, methodsWith form.signature ((enumLines f e).map String.toList ++ rest) =
        m :: methodsWith form.signature rest) :
    form.switches? (render f o d) = some (d.enums.map switch) := by
  rw [switches?, methods_render f o wf]
  show (methodsWith form.signature _).mapM _ = _
  generalize d.enums = es at one ⊢
  induction es with
  | nil => rfl
  | cons e es ih =>
    rw [List.forall_mem_cons] at one
    obtain ⟨⟨m, reads, first⟩, later⟩ := one
    rw [List.flatMap_cons, List.map_append, first, List.mapM_cons, reads, ih later]
    rfl

end Form

/-! ## The switches of an enum type -/

/-- What the `String` method does: every constant has its text. -/
def stringSwitch (e : EnumType) : Switch where
  receiver := e.name
  cases := (zeroName e, "*!!!* UNINITIALIZED " ++ e.name ++ " VALUE *!!!*") ::
    e.members.map fun m => (memberName e m, m.tag)

/-- What the `scanString` method does: every text has its constant. -/
def scanSwitch (e : EnumType) : Switch where
  receiver := "*" ++ e.name
  cases := ("0", zeroName e) :: e.members.map fun m => (m.tag, memberName e m)

lemma returned?_literal (s : String) :
    returned? ("\t\treturn " ++ literal s).toList = some s.toList := by
  rw [returned?, String.toList_append, List.dropPrefix?_append_of_beq _ (beq_self_eq_true _),
    Option.bind_some, toList_literal, unquote?_literalChars]

lemma stringForm_result? (l : List Char) : stringForm.result? l = returned? l :=
  rfl

lemma stringForm_isDefault (l : List Char) : stringForm.isDefault l = (returned? l).isSome :=
  rfl

lemma stringForm_writes : stringForm.Writes id fun s => "\t\treturn " ++ literal s := by
  constructor
  · intro s
    rfl
  · intro s
    rw [stringForm_result?, returned?_literal]

lemma scanForm_label? (l : List Char) : scanForm.label? l = unquote? l :=
  rfl

lemma scanForm_result? (l : List Char) : scanForm.result? l = l.dropPrefix? "\t\t*v = ".toList :=
  rfl

lemma scanForm_isDefault (l : List Char) :
    scanForm.isDefault l = "\t\treturn fmt.Errorf(".toList.isPrefixOf l :=
  rfl

lemma scanForm_writes : scanForm.Writes literal fun s => "\t\t*v = " ++ s := by
  constructor
  · intro s
    rw [scanForm_label?, toList_literal, unquote?_literalChars]
  · intro s
    rw [scanForm_result?, String.toList_append,
      List.dropPrefix?_append_of_beq _ (beq_self_eq_true _)]

lemma literal_of_plain {s : String} (plain : ∀ c ∈ s.toList, Plain c) :
    literal s = "\"" ++ s ++ "\"" := by
  rw [← String.toList_inj, toList_literal, literalChars_of_plain plain]
  simp

lemma not_isControl_of_letterOrDigit {c : Char} (word : LetterOrDigit c) : ¬isControl c := by
  have between : '0' ≤ c ∧ c ≤ 'z' := by
    obtain (⟨lo, hi⟩ | ⟨lo, hi⟩ | rfl) | ⟨lo, hi⟩ := word
    · exact ⟨le_trans (by decide) lo, le_trans hi (by decide)⟩
    · exact ⟨le_trans (by decide) lo, hi⟩
    · decide
    · exact ⟨lo, le_trans hi (by decide)⟩
  have lo : '0'.toNat ≤ c.toNat := between.1
  have hi : c.toNat ≤ 'z'.toNat := between.2
  simp only [isControl, Bool.or_eq_true, Bool.and_eq_true, decide_eq_true_eq]
  simp only [Char.reduceToNat] at lo hi
  omega

lemma plain_of_letterOrDigit {c : Char} (word : LetterOrDigit c) : Plain c := by
  have ne {d : Char} (no : ¬isWordChar d) : c ≠ d := by
    rintro rfl
    exact no (isWordChar_iff.mpr word)
  rw [Plain, literalChar, if_neg (ne (by decide)), if_neg (ne (by decide)), if_neg (ne (by decide)),
    if_neg (ne (by decide)), if_neg (ne (by decide)), if_neg (not_isControl_of_letterOrDigit word)]

/-- A text around an identifier is a literal as it stands. -/
lemma literal_around {name before after : String} (id : IsIdentifier name)
    (plain : ∀ c ∈ before.toList ++ after.toList, Plain c) :
    literal (before ++ name ++ after) = "\"" ++ before ++ name ++ after ++ "\"" := by
  rw [List.forall_mem_append] at plain
  have all : ∀ c ∈ (before ++ name ++ after).toList, Plain c := by
    rw [String.toList_append, String.toList_append, List.forall_mem_append, List.forall_mem_append]
    exact ⟨⟨plain.1, fun c mem => plain_of_letterOrDigit (id.letterOrDigit c mem)⟩, plain.2⟩
  rw [literal_of_plain all]
  simp only [String.append_assoc]

/-- The body of the `String` method. -/
def stringBody (e : EnumType) : List String :=
  stringForm.body id (fun s => "\t\treturn " ++ literal s) (stringSwitch e).cases
    ("\t\treturn " ++ literal ("*!* INVALID " ++ e.name ++ " VALUE *!*"))

/-- The body of the `scanString` method. -/
def scanBody (e : EnumType) : List String :=
  scanForm.body literal (fun s => "\t\t*v = " ++ s) (scanSwitch e).cases
    ("\t\treturn fmt.Errorf(\"*!* INVALID " ++ e.name ++ " LITERAL: %q *!*\", s)")

lemma switch?_stringBody (e : EnumType) :
    stringForm.switch? ⟨e.name.toList, stringForm.signature.toList,
      (stringBody e).map String.toList⟩ = some (stringSwitch e) := by
  apply stringForm_writes.switch?
  rw [stringForm_isDefault, returned?_literal]
  rfl

lemma switch?_scanBody (e : EnumType) :
    scanForm.switch? ⟨("*" ++ e.name).toList, scanForm.signature.toList,
      (scanBody e).map String.toList⟩ = some (scanSwitch e) := by
  apply scanForm_writes.switch?
  rw [scanForm_isDefault, List.isPrefixOf_iff_prefix]
  simp

lemma stringLines_eq {e : EnumType} (id : IsIdentifier e.name) :
    stringLines e = ("func (v " ++ e.name ++ ") String() string \x7b") ::
      (stringBody e ++ ["\x7d"]) := by
  -- Two literals are written out with the name between the quotes, which needs no escapes.
  have zero : "\t\treturn " ++ literal ("*!!!* UNINITIALIZED " ++ e.name ++ " VALUE *!!!*") =
      "\t\treturn \"*!!!* UNINITIALIZED " ++ e.name ++ " VALUE *!!!*\"" := by
    rw [literal_around id (by simp [Plain, literalChar, isControl]), ← String.toList_inj]
    simp
  have last : "\t\treturn " ++ literal ("*!* INVALID " ++ e.name ++ " VALUE *!*") =
      "\t\treturn \"*!* INVALID " ++ e.name ++ " VALUE *!*\"" := by
    rw [literal_around id (by simp [Plain, literalChar, isControl]), ← String.toList_inj]
    simp
  simp [stringLines, stringBody, Form.body, stringForm, stringSwitch, Form.caseLines, zero, last,
    List.flatMap_map]

lemma scanStringLines_eq {e : EnumType} :
    scanStringLines e = "" :: ("func (v *" ++ e.name ++ ") scanString(s string) error \x7b") ::
      (scanBody e ++ ["\x7d"]) := by
  have zero : literal "0" = "\"0\"" := by decide
  simp [scanStringLines, scanBody, Form.body, scanForm, scanSwitch, Form.caseLines, zero,
    List.flatMap_map]

/-! ## The switches of a rendered file -/

/-- Beyond the `String` method, every flavour but the plain one has a `scanString` method first. -/
lemma methodLines_eq {f : Flavour} {e : EnumType} (no : ')' ∉ e.name.toList) (scans : f ≠ .std) :
    ∃ ls, methodLines f e = scanStringLines e ++ ls ∧
      ∀ form ∈ [stringForm, scanForm], form.signature.toList ∉ signatures ls := by
  cases f with
  | std => exact absurd rfl scans
  | fmtScanner => exact ⟨_, rfl, by simp [signatures_fmtScanLines no, stringForm, scanForm]⟩
  | sqlScanner => exact ⟨_, rfl, by simp [signatures_sqlScanLines no, stringForm, scanForm]⟩
  | json => exact ⟨_, rfl, by simp [signatures_jsonLines no, stringForm, scanForm]⟩
  | xml => exact ⟨_, rfl, by simp [signatures_xmlLines no, stringForm, scanForm]⟩

lemma not_mem_signatures_methodLines (f : Flavour) {e : EnumType} (no : ')' ∉ e.name.toList) :
    stringForm.signature.toList ∉ signatures (methodLines f e) := by
  by_cases std : f = .std
  · rw [std]
    exact List.not_mem_nil
  obtain ⟨ls, lines, others⟩ := methodLines_eq no std
  rw [lines, signatures_append, signatures_scanStringLines no, List.mem_append, not_or]
  exact ⟨by simp [stringForm], others _ (by simp)⟩

/-- The `String` methods of a rendered file are the switches of its enum types. -/
lemma switches?_stringForm (f : Flavour) (o : Origin) {d : Document} (wf : d.WellFormed) :
    stringForm.switches? (render f o d) = some (d.enums.map stringSwitch) := by
  apply Form.switches?_render f o wf
  intro e mem
  have id := (wf.enums e mem).name
  have no : ')' ∉ e.name.toList := id.not_mem (by decide)
  have indented : ∀ l ∈ stringBody e, l.toList.head? = some '\t' := by
    simp +contextual [stringBody, Form.body, Form.caseLines, stringForm, or_imp]
  refine ⟨_, switch?_stringBody e, ?_⟩
  intro rest
  rw [enumLines_eq, stringLines_eq id]
  exact methodsWith_between no rfl indented (by simp [signatures_declarationLines])
    (not_mem_signatures_methodLines f no)

/-- So are the `scanString` methods, of every flavour that has them. -/
lemma switches?_scanForm {f : Flavour} (o : Origin) {d : Document} (wf : d.WellFormed)
    (scans : f ≠ .std) : scanForm.switches? (render f o d) = some (d.enums.map scanSwitch) := by
  apply Form.switches?_render f o wf
  intro e mem
  have no : ')' ∉ e.name.toList := (wf.enums e mem).name.not_mem (by decide)
  have indented : ∀ l ∈ scanBody e, l.toList.head? = some '\t' := by
    simp +contextual [scanBody, Form.body, Form.caseLines, scanForm, or_imp]
  obtain ⟨ls, lines, others⟩ := methodLines_eq no scans
  have split : enumLines f e = (declarationLines e ++ stringLines e ++ [""]) ++
      (("func (v " ++ ("*" ++ e.name) ++ scanForm.signature) :: (scanBody e ++ ["\x7d"])) ++
        ls := by
    rw [enumLines_eq, lines, scanStringLines_eq, func_pointer]
    simp [scanForm]
  refine ⟨_, switch?_scanBody e, ?_⟩
  intro rest
  rw [split]
  refine methodsWith_between (by simpa using no) rfl indented ?_ (others _ (by simp))
  rw [signatures_append, signatures_append, signatures_declarationLines,
    signatures_stringLines no, signatures_cons_other (by simp)]
  simp [scanForm, signatures_nil]

end EnumGen.Code
