import EnumGen.Code.Render
import EnumGen.Proofs.Code.Unquote
import EnumGen.Proofs.Document.Layout
import Mathlib.Data.List.DropRight
import Mathlib.Data.List.TakeDrop

/-!
# The methods of a generated file

A generated file is read line by line. What it declares stands behind its package clause, and a
method there is a line that names the receiver, the indented lines of the body and a closing brace.
`methods` reads all methods of a text in their order.

For the file of a well-formed document they are those that `Code.render` means to write, enum type
by enum type (`methods_render`): names are identifiers and tags stand in literals, so none of them
starts a line or ends one. The header may hold any text at all, since a file name or a user with a
newline in it goes on with lines of its own; therefore the clause that counts is the last one.

Methods of one kind are told from the others by their signature. `signatures` lists those of all
methods that start among some lines, and lines without the signature are passed over when methods
with it are read (`methodsWith_append`).
-/

namespace EnumGen.Code

/-! ## Prefixes and delimiters -/

lemma dropPrefix?_eq_none {p l : List Char} (no : ¬p <+: l) : l.dropPrefix? p = none := by
  cases h : l.dropPrefix? p with
  | none => rfl
  | some s =>
    obtain ⟨p', rfl, e⟩ := List.dropPrefix?_eq_some_iff.mp h
    rw [beq_iff_eq] at e
    subst e
    exact absurd (List.prefix_append _ _) no

lemma dropPrefix?_eq_none_of_head? {p l : List Char} {c : Char} (starts : p.head? = some c)
    (no : l.head? ≠ some c) : l.dropPrefix? p = none := by
  apply dropPrefix?_eq_none
  rintro ⟨s, rfl⟩
  rw [List.head?_append, starts] at no
  exact no rfl

/-- A list is cut where a delimiter stands for the first time, or at its end. -/
lemma cut_append {α : Type} [BEq α] [LawfulBEq α] {a : α} {l : List α} (no : a ∉ l)
    (rest : List α) (behind : ∀ b ∈ rest.head?, b = a) :
    (l ++ rest).takeWhile (· != a) = l ∧ (l ++ rest).dropWhile (· != a) = rest := by
  have all : ∀ b ∈ l, (b != a) = true := by
    intro b mem
    rw [bne_iff_ne]
    rintro rfl
    exact no mem
  rw [List.takeWhile_append_of_pos all, List.dropWhile_append_of_pos all]
  cases rest with
  | nil => simp
  | cons b rest =>
    obtain rfl := behind b rfl
    simp

/-! ## Lines of a text -/

/-- The lines of a text, each without the newline that ends it. -/
def textLines : List Char → List (List Char)
  | [] => []
  | c :: s =>
    if c = '\n' then [] :: textLines s
    else
      match textLines s with
      | [] => [[c]]
      | l :: ls => (c :: l) :: ls

/-- Lines one below the other, each with a newline at its end. -/
def ended (ls : List (List Char)) : List Char :=
  ls.flatMap (· ++ ['\n'])

lemma toList_render (f : Flavour) (o : Origin) (d : Document) :
    (render f o d).toList = ended ((lines f o d).map String.toList) := by
  simp [render, ended, List.flatMap_map]

/-- A text that ends with a newline does not run on into what follows it. -/
lemma textLines_append_newline (s t : List Char) :
    textLines (s ++ '\n' :: t) = textLines (s ++ ['\n']) ++ textLines t := by
  induction s with
  | nil => rfl
  | cons c s ih =>
    rw [List.cons_append, List.cons_append, textLines, textLines, ih]
    split
    · rfl
    · -- There is a line in front of the newline, and the character belongs to it.
      cases h : textLines (s ++ ['\n']) with
      | nil =>
        have long := congrArg List.length h
        cases s with
        | nil => cases long
        | cons d s =>
          rw [List.cons_append, textLines] at h
          split at h
          · cases h
          · split at h <;> cases h
      | cons l ls => rfl

lemma textLines_ended_append (ls : List (List Char)) (t : List Char) :
    textLines (ended ls ++ t) = textLines (ended ls) ++ textLines t := by
  induction ls with
  | nil => rfl
  | cons l ls ih =>
    simp only [ended, List.flatMap_cons, List.append_assoc, List.cons_append,
      List.nil_append] at ih ⊢
    rw [textLines_append_newline, ih, textLines_append_newline l (List.flatMap _ ls),
      List.append_assoc]

/-- Lines without newlines are the lines of the text that they make up. -/
lemma textLines_ended {ls : List (List Char)} (one : ∀ l ∈ ls, '\n' ∉ l) :
    textLines (ended ls) = ls := by
  have single {l : List Char} (no : '\n' ∉ l) : textLines (l ++ ['\n']) = [l] := by
    induction l with
    | nil => rfl
    | cons c l ih =>
      rw [List.mem_cons, not_or] at no
      rw [List.cons_append, textLines, if_neg (Ne.symm no.1), ih no.2]
  induction ls with
  | nil => rfl
  | cons l ls ih =>
    rw [List.forall_mem_cons] at one
    simp only [ended, List.flatMap_cons, List.append_assoc, List.singleton_append] at ih ⊢
    rw [textLines_append_newline, single one.1, ih one.2]
    rfl

/-! ## Methods -/

/-- A method with its receiver, the rest of its first line and its body. -/
structure Method where
  receiver : List Char
  signature : List Char
  body : List (List Char)
  deriving DecidableEq, Repr

/-- The receiver and the signature in the first line of a method. -/
def opener? (line : List Char) : Option (List Char × List Char) :=
  (line.dropPrefix? "func (v ".toList).map fun s => s.span (· != ')')

/-- The methods among lines, each up to the next brace at the start of a line. -/
def methodsIn : List (List Char) → List Method
  | [] => []
  | line :: ls =>
    match opener? line with
    | some (receiver, signature) =>
      ⟨receiver, signature, ls.takeWhile (· != ['\x7d'])⟩ :: methodsIn ls
    | none => methodsIn ls

/-- The line is a package clause. -/
def isClause (line : List Char) : Bool :=
  "package ".toList.isPrefixOf line

/-- The lines behind the last package clause. -/
def declarations (ls : List (List Char)) : List (List Char) :=
  ls.rtakeWhile (!isClause ·)

/-- The methods of a generated file. -/
def methods (text : String) : List Method :=
  methodsIn (declarations (textLines text.toList))

lemma declarations_append {before after : List (List Char)} {clause : List Char}
    (is : isClause clause) (no : ∀ l ∈ after, ¬isClause l) :
    declarations (before ++ clause :: after) = after := by
  rw [declarations, List.rtakeWhile, List.reverse_append, List.reverse_cons, List.append_assoc,
    List.takeWhile_append_of_pos]
  · simp [is]
  · intro l mem
    simpa using no l (List.mem_reverse.mp mem)

lemma opener?_func {receiver signature : List Char} (no : ')' ∉ receiver) :
    opener? ("func (v ".toList ++ (receiver ++ ')' :: signature)) =
      some (receiver, ')' :: signature) := by
  have cut := cut_append no (')' :: signature) (by simp)
  have drop : ("func (v ".toList ++ (receiver ++ ')' :: signature)).dropPrefix? "func (v ".toList =
      some (receiver ++ ')' :: signature) :=
    List.dropPrefix?_eq_some_iff.mpr ⟨_, rfl, beq_self_eq_true _⟩
  rw [opener?, drop, Option.map_some, List.span_eq_takeWhile_dropWhile, cut.1, cut.2]

lemma opener?_eq_none {line : List Char} (no : line.head? ≠ some 'f') : opener? line = none := by
  rw [opener?, dropPrefix?_eq_none_of_head? rfl no, Option.map_none]

/-- Lines that no method starts with are passed over. -/
lemma methodsIn_append {ls rest : List (List Char)} (no : ∀ l ∈ ls, l.head? ≠ some 'f') :
    methodsIn (ls ++ rest) = methodsIn rest := by
  induction ls with
  | nil => rfl
  | cons l ls ih =>
    rw [List.forall_mem_cons] at no
    rw [List.cons_append, methodsIn, opener?_eq_none no.1]
    exact ih no.2

/-- A method goes on to the brace behind its indented lines, and what follows is read on its own. -/
lemma methodsIn_block {line receiver signature : List Char} {body rest : List (List Char)}
    (opens : opener? line = some (receiver, signature))
    (indented : ∀ l ∈ body, l.head? = some '\t') :
    methodsIn (line :: (body ++ ['\x7d'] :: rest)) =
      ⟨receiver, signature, body⟩ :: methodsIn rest := by
  have inside : ['\x7d'] ∉ body := fun mem => nomatch indented _ mem
  -- The lines of the body are looked at again for methods that start there, and none does.
  have later : methodsIn (body ++ ['\x7d'] :: rest) = methodsIn rest := by
    rw [methodsIn_append]
    · rw [methodsIn, opener?_eq_none (by decide)]
    · intro l mem
      rw [indented l mem]
      decide
  rw [methodsIn, opens, (cut_append inside _ (by simp)).1, later]

/-! ## The methods of a rendered file -/

/-- One line, and no package clause. -/
def Behind (l : String) : Prop :=
  '\n' ∉ l.toList ∧ l.toList.head? ≠ some 'p'

lemma Behind.not_isClause {l : String} (b : Behind l) : ¬isClause l.toList := by
  intro clause
  obtain ⟨s, e⟩ := List.isPrefixOf_iff_prefix.mp clause
  apply b.2
  rw [← e]
  rfl

/-- Each flavour has its own methods, and all but the first one have `scanString`. -/
lemma forall_mem_methodLines {P : String → Prop} {e : EnumType}
    (scan : ∀ l ∈ scanStringLines e, P l) (fmt : ∀ l ∈ fmtScanLines e, P l)
    (sql : ∀ l ∈ sqlScanLines e, P l) (json : ∀ l ∈ jsonLines e, P l)
    (xml : ∀ l ∈ xmlLines e, P l) (f : Flavour) : ∀ l ∈ methodLines f e, P l := by
  cases f with
  | std => exact List.forall_mem_nil _
  | fmtScanner => exact List.forall_mem_append.mpr ⟨scan, fmt⟩
  | sqlScanner => exact List.forall_mem_append.mpr ⟨scan, sql⟩
  | json => exact List.forall_mem_append.mpr ⟨scan, json⟩
  | xml => exact List.forall_mem_append.mpr ⟨scan, xml⟩

section

variable {e : EnumType} (name : '\n' ∉ e.name.toList)
  (members : ∀ m ∈ e.members, '\n' ∉ m.name.toList)

include name members

lemma behind_basicLines : ∀ l ∈ basicLines e, Behind l := by
  have base : '\n' ∉ e.base.name.toList := by cases e.base <;> decide
  simp +contextual [basicLines, typeLines, constLines, stringLines, Behind, zeroName, memberName,
    or_imp, forall_and, newline_not_mem_literalChars, name, members, base]

lemma behind_scanStringLines : ∀ l ∈ scanStringLines e, Behind l := by
  simp +contextual [scanStringLines, Behind, zeroName, memberName, or_imp, forall_and,
    newline_not_mem_literalChars, name, members]

lemma behind_methodLines (f : Flavour) : ∀ l ∈ methodLines f e, Behind l := by
  apply forall_mem_methodLines (behind_scanStringLines name members)
  · simp [fmtScanLines, Behind, name]
  · simp [sqlScanLines, Behind, name]
  · simp [jsonLines, Behind, name]
  · simp [xmlLines, Behind, name]

end

lemma behind_enumLines (f : Flavour) {e : EnumType} (wf : e.WellFormed) :
    ∀ l ∈ enumLines f e, Behind l := by
  have name : '\n' ∉ e.name.toList := wf.name.not_mem (by decide)
  have members : ∀ m ∈ e.members, '\n' ∉ m.name.toList :=
    fun m mem => (wf.members m mem).name.not_mem (by decide)
  rw [enumLines, List.forall_mem_append, List.forall_mem_append, List.forall_mem_singleton]
  exact ⟨⟨by simp [Behind], behind_basicLines name members⟩, behind_methodLines name members f⟩

lemma behind_importLines (f : Flavour) : ∀ l ∈ importLines f.imports, Behind l := by
  cases f <;> simp [importLines, Flavour.imports, Behind]

/-- What stands behind the package clause of a rendered file. -/
def behindLines (f : Flavour) (d : Document) : List String :=
  importLines f.imports ++ d.enums.flatMap (enumLines f)

lemma behind_behindLines (f : Flavour) {d : Document} (wf : d.WellFormed) :
    ∀ l ∈ behindLines f d, Behind l := by
  have enums : ∀ l ∈ d.enums.flatMap (enumLines f), Behind l := by
    intro l mem
    obtain ⟨e, mem, mem'⟩ := List.mem_flatMap.mp mem
    exact behind_enumLines f (wf.enums e mem) l mem'
  exact List.forall_mem_append.mpr ⟨behind_importLines f, enums⟩

lemma not_isClause_behindLines (f : Flavour) {d : Document} (wf : d.WellFormed) :
    ∀ l ∈ (behindLines f d).map String.toList, ¬isClause l := by
  rw [List.forall_mem_map]
  exact fun l mem => (behind_behindLines f wf l mem).not_isClause

/-- The lines of a rendered file are those of its header, whatever stands there, and then the
package clause and what is behind it. -/
lemma textLines_render_header (f : Flavour) (o : Origin) {d : Document} (wf : d.WellFormed) :
    textLines (render f o d).toList = textLines (ended ((headerLines o).map String.toList)) ++
      ("package " ++ d.package).toList :: (behindLines f d).map String.toList := by
  have package : '\n' ∉ ("package " ++ d.package).toList := by
    simpa using wf.package.not_mem (by decide)
  have one : ∀ l ∈ (("package " ++ d.package) :: behindLines f d).map String.toList, '\n' ∉ l := by
    rw [List.forall_mem_map, List.forall_mem_cons]
    exact ⟨package, fun l mem => (behind_behindLines f wf l mem).1⟩
  -- Only the header may have newlines inside its lines, so what is below it is split off first.
  have text : (render f o d).toList = ended ((headerLines o).map String.toList) ++
      ended ((("package " ++ d.package) :: behindLines f d).map String.toList) := by
    rw [toList_render, lines, behindLines]
    simp [ended]
  rw [text, textLines_ended_append, textLines_ended one, List.map_cons]

lemma isClause_package (name : String) : isClause ("package " ++ name).toList := by
  rw [isClause, String.toList_append, List.isPrefixOf_iff_prefix]
  exact List.prefix_append _ _

/-- What a rendered file declares stands behind its own package clause. -/
lemma declarations_render (f : Flavour) (o : Origin) {d : Document} (wf : d.WellFormed) :
    declarations (textLines (render f o d).toList) = (behindLines f d).map String.toList := by
  rw [textLines_render_header f o wf,
    declarations_append (isClause_package _) (not_isClause_behindLines f wf)]

/-- The methods of a rendered file are those of its enum types, whatever stands in the header. -/
lemma methods_render (f : Flavour) (o : Origin) {d : Document} (wf : d.WellFormed) :
    methods (render f o d) = methodsIn ((d.enums.flatMap (enumLines f)).map String.toList) := by
  have imports : ∀ l ∈ (importLines f.imports).map String.toList, l.head? ≠ some 'f' := by
    cases f <;> simp [importLines, Flavour.imports]
  rw [methods, declarations_render f o wf, behindLines, List.map_append, methodsIn_append imports]

/-! ## Methods with a signature -/

/-- The signatures of all methods that start among the lines. -/
def signatures (ls : List String) : List (List Char) :=
  ls.filterMap fun l => (opener? l.toList).map Prod.snd

lemma signatures_nil : signatures [] = [] :=
  rfl

lemma signatures_append (ls ls' : List String) :
    signatures (ls ++ ls') = signatures ls ++ signatures ls' :=
  List.filterMap_append

lemma signatures_cons_other {l : String} (no : l.toList.head? ≠ some 'f') (ls : List String) :
    signatures (l :: ls) = signatures ls := by
  rw [signatures, List.filterMap_cons, opener?_eq_none no]
  rfl

lemma signatures_eq_nil {ls : List String} (no : ∀ l ∈ ls, l.toList.head? ≠ some 'f') :
    signatures ls = [] := by
  rw [signatures, List.filterMap_eq_nil_iff]
  intro l mem
  rw [opener?_eq_none (no l mem), Option.map_none]

lemma opener?_method {receiver signature : String} (no : ')' ∉ receiver.toList)
    (ends : signature.toList.head? = some ')') :
    opener? ("func (v " ++ receiver ++ signature).toList =
      some (receiver.toList, signature.toList) := by
  obtain ⟨rest, ends⟩ := List.head?_eq_some_iff.mp ends
  rw [String.toList_append, String.toList_append, List.append_assoc, ends, opener?_func no]

lemma signatures_cons_value {name signature : String} (no : ')' ∉ name.toList)
    (ends : signature.toList.head? = some ')') (ls : List String) :
    signatures (("func (v " ++ name ++ signature) :: ls) = signature.toList :: signatures ls := by
  rw [signatures, List.filterMap_cons, opener?_method no ends]
  rfl

lemma func_pointer (name signature : String) :
    "func (v *" ++ name ++ signature = "func (v " ++ ("*" ++ name) ++ signature := by
  rw [← String.append_assoc]
  rfl

lemma signatures_cons_pointer {name signature : String} (no : ')' ∉ name.toList)
    (ends : signature.toList.head? = some ')') (ls : List String) :
    signatures (("func (v *" ++ name ++ signature) :: ls) = signature.toList :: signatures ls := by
  rw [func_pointer]
  exact signatures_cons_value (by simpa using no) ends ls

/-- The methods among lines that have the signature. -/
def methodsWith (signature : String) (ls : List (List Char)) : List Method :=
  (methodsIn ls).filter (·.signature = signature.toList)

variable {signature : String}

/-- Methods with other signatures are passed over. -/
lemma methodsWith_append {ls : List String} {rest : List (List Char)}
    (no : signature.toList ∉ signatures ls) :
    methodsWith signature (ls.map String.toList ++ rest) = methodsWith signature rest := by
  induction ls with
  | nil => rfl
  | cons l ls ih =>
    rw [signatures, List.filterMap_cons] at no
    rw [List.map_cons, List.cons_append, methodsWith, methodsIn]
    cases opens : opener? l.toList with
    | none =>
      rw [opens] at no
      exact ih no
    | some p =>
      obtain ⟨receiver, other⟩ := p
      rw [opens, Option.map_some, List.mem_cons, not_or] at no
      exact (List.filter_cons_of_neg (by simpa using Ne.symm no.1)).trans (ih no.2)

lemma methodsWith_block {receiver : String} {body : List String} {rest : List (List Char)}
    (no : ')' ∉ receiver.toList) (ends : signature.toList.head? = some ')')
    (indented : ∀ l ∈ body, l.toList.head? = some '\t') :
    methodsWith signature ((("func (v " ++ receiver ++ signature) :: (body ++ ["\x7d"])).map
      String.toList ++ rest) =
        ⟨receiver.toList, signature.toList, body.map String.toList⟩ ::
          methodsWith signature rest := by
  have opens := opener?_method no ends
  have block : (("func (v " ++ receiver ++ signature) :: (body ++ ["\x7d"])).map
      String.toList ++ rest = ("func (v " ++ receiver ++ signature).toList ::
        (body.map String.toList ++ ['\x7d'] :: rest) := by simp
  rw [block, methodsWith, methodsIn_block opens (List.forall_mem_map.mpr indented)]
  exact List.filter_cons_of_pos (by simp)

/-- A method among lines of methods with other signatures. -/
lemma methodsWith_between {receiver : String} {before body after : List String}
    {rest : List (List Char)} (no : ')' ∉ receiver.toList)
    (ends : signature.toList.head? = some ')')
    (indented : ∀ l ∈ body, l.toList.head? = some '\t')
    (first : signature.toList ∉ signatures before)
    (last : signature.toList ∉ signatures after) :
    methodsWith signature ((before ++ (("func (v " ++ receiver ++ signature) ::
      (body ++ ["\x7d"])) ++ after).map String.toList ++ rest) =
        ⟨receiver.toList, signature.toList, body.map String.toList⟩ ::
          methodsWith signature rest := by
  rw [List.map_append, List.map_append, List.append_assoc, List.append_assoc,
    methodsWith_append first, methodsWith_block no ends indented, methodsWith_append last]

/-! ## The signatures of an enum type -/

section

variable {e : EnumType} (no : ')' ∉ e.name.toList)

include no

lemma signatures_fmtScanLines : signatures (fmtScanLines e) =
    [") Scan(state fmt.ScanState, verb rune) error \x7b".toList] := by
  simp (disch := first | decide | simp) only [fmtScanLines, signatures_nil, signatures_cons_other,
    signatures_cons_pointer no]

lemma signatures_sqlScanLines : signatures (sqlScanLines e) =
    [") Scan(src interface\x7b\x7d) error \x7b".toList] := by
  simp (disch := first | decide | simp) only [sqlScanLines, signatures_nil, signatures_cons_other,
    signatures_cons_pointer no]

lemma signatures_jsonLines : signatures (jsonLines e) =
    [") MarshalJSON() ([]byte, error) \x7b".toList,
      ") UnmarshalJSON(data []byte) error \x7b".toList] := by
  simp (disch := first | decide | simp) only [jsonLines, signatures_nil, signatures_cons_other,
    signatures_cons_value no, signatures_cons_pointer no]

lemma signatures_xmlLines : signatures (xmlLines e) =
    [") MarshalXML(e *xml.Encoder, start xml.StartElement) error \x7b".toList,
      ") UnmarshalXML(d *xml.Decoder, start xml.StartElement) error \x7b".toList] := by
  simp (disch := first | decide | simp) only [xmlLines, signatures_nil, signatures_cons_other,
    signatures_cons_value no, signatures_cons_pointer no]

lemma signatures_stringLines : signatures (stringLines e) =
    [") String() string \x7b".toList] := by
  have body : ∀ l ∈ (stringLines e).tail, l.toList.head? ≠ some 'f' := by
    simp +contextual [stringLines, or_imp]
  rw [stringLines, List.cons_append, List.cons_append, signatures_cons_value no (by simp)]
  exact congrArg _ (signatures_eq_nil body)

lemma signatures_scanStringLines : signatures (scanStringLines e) =
    [") scanString(s string) error \x7b".toList] := by
  have body : ∀ l ∈ (scanStringLines e).tail.tail, l.toList.head? ≠ some 'f' := by
    simp +contextual [scanStringLines, or_imp]
  rw [scanStringLines, List.cons_append, List.cons_append, List.cons_append, List.cons_append,
    signatures_cons_other (by simp), signatures_cons_pointer no (by simp)]
  exact congrArg _ (signatures_eq_nil body)

end

/-- The lines in front of the `String` method of an enum type. -/
def declarationLines (e : EnumType) : List String :=
  [""] ++ typeLines e ++ [""] ++ constLines e ++ [""]

lemma enumLines_eq (f : Flavour) (e : EnumType) :
    enumLines f e = declarationLines e ++ stringLines e ++ methodLines f e := by
  simp [enumLines, basicLines, declarationLines]

lemma signatures_declarationLines (e : EnumType) : signatures (declarationLines e) = [] := by
  apply signatures_eq_nil
  simp +contextual [declarationLines, typeLines, constLines, or_imp]

end EnumGen.Code
