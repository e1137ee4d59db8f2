import EnumGen.Proofs.Code.Switches

/-!
# The document of a generated file

Nothing of a document is lost in its generated file. The package is named in the last package clause,
every type declaration below it gives a name and a base type, and the `String` method of the type
lists the members with their tags in the order of declaration. `recover?` puts the document together
from these three, without knowing the flavour of the file or what its header records
(`recover?_render`). Files of different documents are therefore different (`render_injective`).
-/

namespace EnumGen.Code

/-! ## Reading a document -/

/-- The name in the last package clause. -/
def package? (ls : List (List Char)) : Option String :=
  (ls.reverse.findSome? (·.dropPrefix? "package ".toList)).map String.ofList

/-- The integer type of a name. -/
def baseOfName? (name : List Char) : Option IntType :=
  IntType.all.find? (·.name.toList = name)

/-- The name and the base type in the line of a type declaration. -/
def typeOf? (line : List Char) : Option (String × IntType) := do
  let rest ← line.dropPrefix? "type ".toList
  let base ← baseOfName? (rest.dropWhile (· != ' ')).tail
  return (String.ofList (rest.takeWhile (· != ' ')), base)

/-- The member of the type that a case of the `String` method stands for. -/
def memberOf? (type : String) (c : String × String) : Option Member :=
  (c.1.toList.dropPrefix? (type ++ "_").toList).map fun name => ⟨String.ofList name, c.2⟩

/-- An enum type from its declaration and its `String` method, whose first case is the one of the
zero value. -/
def enumOf? (type : String × IntType) (s : Switch) : Option EnumType := do
  guard (s.receiver = type.1)
  return ⟨type.1, type.2, ← s.cases.tail.mapM (memberOf? type.1)⟩

/-- The enum types from their declarations and their `String` methods. -/
def enumsOf? (types : List (String × IntType)) (ss : List Switch) : Option (List EnumType) := do
  guard (types.length = ss.length)
  (types.zip ss).mapM fun p => enumOf? p.1 p.2

/-- The document that a generated file was made of. -/
def recover? (text : String) : Option Document := do
  let ls := textLines text.toList
  let package ← package? ls
  let enums ← enumsOf? ((declarations ls).filterMap typeOf?) (← stringForm.switches? text)
  return ⟨package, enums⟩

/-! ## The parts of a rendered file -/

lemma dropPrefix?_eq_none_of_not_isClause {line : List Char} (no : ¬isClause line) :
    line.dropPrefix? "package ".toList = none :=
  dropPrefix?_eq_none fun clause => no (List.isPrefixOf_iff_prefix.mpr clause)

lemma package?_append {before after : List (List Char)} {name : String}
    (no : ∀ l ∈ after, ¬isClause l) :
    package? (before ++ ("package " ++ name).toList :: after) = some name := by
  have none : after.reverse.findSome? (·.dropPrefix? "package ".toList) = none := by
    rw [List.findSome?_eq_none_iff]
    intro l mem
    exact dropPrefix?_eq_none_of_not_isClause (no l (List.mem_reverse.mp mem))
  rw [package?, List.reverse_append, List.reverse_cons, List.append_assoc, List.findSome?_append,
    none, Option.none_or, List.singleton_append, List.findSome?_cons, String.toList_append,
    List.dropPrefix?_append_of_beq _ (beq_self_eq_true _)]
  exact congrArg some String.ofList_toList

lemma baseOfName?_name (t : IntType) : baseOfName? t.name.toList = some t := by
  cases t <;> decide

lemma typeOf?_eq_none {line : List Char} (no : line.head? ≠ some 't') : typeOf? line = none := by
  rw [typeOf?, dropPrefix?_eq_none_of_head? rfl no]
  rfl

lemma typeOf?_typeLine {e : EnumType} (id : IsIdentifier e.name) :
    typeOf? ("type " ++ e.name ++ " " ++ e.base.name).toList = some (e.name, e.base) := by
  have no : ' ' ∉ e.name.toList := id.not_mem (by decide)
  have cut := cut_append no (' ' :: e.base.name.toList) (by simp)
  have line : ("type " ++ e.name ++ " " ++ e.base.name).toList =
      "type ".toList ++ (e.name.toList ++ ' ' :: e.base.name.toList) := by simp
  rw [typeOf?, line, List.dropPrefix?_append_of_beq _ (beq_self_eq_true _)]
  show (baseOfName? _).bind _ = _
  rw [cut.1, cut.2, List.tail_cons, baseOfName?_name, Option.bind_some, String.ofList_toList]
  rfl

/-- The lines of methods are blank, or they start with `func`, a tab or a brace. -/
lemma head?_methodLines {c : Char} (no : c ∉ ['f', '\t', '\x7d']) (f : Flavour) (e : EnumType) :
    ∀ l ∈ stringLines e ++ methodLines f e, l.toList.head? ≠ some c := by
  obtain ⟨func, tab, brace⟩ : 'f' ≠ c ∧ '\t' ≠ c ∧ '\x7d' ≠ c := by
    simpa [eq_comm] using no
  have string : ∀ l ∈ stringLines e, l.toList.head? ≠ some c := by
    simp +contextual [stringLines, or_imp, func, tab, brace]
  have scan : ∀ l ∈ scanStringLines e, l.toList.head? ≠ some c := by
    simp +contextual [scanStringLines, or_imp, func, tab, brace]
  refine List.forall_mem_append.mpr ⟨string, forall_mem_methodLines scan ?_ ?_ ?_ ?_ f⟩
  · simp [fmtScanLines, func, tab, brace]
  · simp [sqlScanLines, func, tab, brace]
  · simp [jsonLines, func, tab, brace]
  · simp [xmlLines, func, tab, brace]

/-- The lines of an enum type hold one type declaration. -/
lemma filterMap_enumLines (f : Flavour) {e : EnumType} (id : IsIdentifier e.name) :
    ((enumLines f e).map String.toList).filterMap typeOf? = [(e.name, e.base)] := by
  have later : ∀ l ∈ [""] ++ constLines e ++ [""] ++ (stringLines e ++ methodLines f e),
      typeOf? l.toList = none := by
    have constants : ∀ l ∈ [""] ++ constLines e ++ [""], l.toList.head? ≠ some 't' := by
      simp +contextual [constLines, or_imp]
    intro l mem
    rw [List.mem_append] at mem
    exact typeOf?_eq_none (mem.elim (constants l) (head?_methodLines (by decide) f e l))
  have split : enumLines f e = "" :: ("type " ++ e.name ++ " " ++ e.base.name) ::
      ([""] ++ constLines e ++ [""] ++ (stringLines e ++ methodLines f e)) := by
    simp [enumLines, basicLines, typeLines]
  rw [split, List.map_cons, List.map_cons, List.filterMap_cons_none (typeOf?_eq_none (by simp)),
    List.filterMap_cons_some (typeOf?_typeLine id),
    List.filterMap_eq_nil_iff.mpr (List.forall_mem_map.mpr later)]

/-- The type declarations of a rendered file are those of its enum types. -/
lemma filterMap_behindLines (f : Flavour) {d : Document} (wf : d.WellFormed) :
    ((behindLines f d).map String.toList).filterMap typeOf? =
      d.enums.map fun e => (e.name, e.base) := by
  have imports : ∀ l ∈ (importLines f.imports).map String.toList, typeOf? l = none := by
    intro l mem
    apply typeOf?_eq_none
    revert l
    cases f <;> simp [importLines, Flavour.imports]
  have names : ∀ e ∈ d.enums, IsIdentifier e.name := fun e mem => (wf.enums e mem).name
  rw [behindLines, List.map_append, List.filterMap_append, List.filterMap_eq_nil_iff.mpr imports,
    List.nil_append]
  generalize d.enums = es at names ⊢
  induction es with
  | nil => rfl
  | cons e es ih =>
    rw [List.forall_mem_cons] at names
    rw [List.flatMap_cons, List.map_append, List.filterMap_append, filterMap_enumLines f names.1,
      ih names.2]
    rfl

lemma memberOf?_memberName (e : EnumType) (m : Member) :
    memberOf? e.name (memberName e m, m.tag) = some m := by
  rw [memberOf?, memberName, String.toList_append,
    List.dropPrefix?_append_of_beq _ (beq_self_eq_true _), Option.map_some, String.ofList_toList]

/-- The declaration of an enum type and its `String` method have all of it. -/
lemma enumOf?_stringSwitch (e : EnumType) : enumOf? (e.name, e.base) (stringSwitch e) = some e := by
  have members : (stringSwitch e).cases.tail.mapM (memberOf? e.name) = some e.members := by
    rw [stringSwitch, List.tail_cons]
    induction e.members with
    | nil => rfl
    | cons m ms ih =>
      rw [List.map_cons, List.mapM_cons, memberOf?_memberName, ih]
      rfl
  rw [enumOf?, members]
  simp [stringSwitch]

lemma enumsOf?_stringSwitch (es : List EnumType) :
    enumsOf? (es.map fun e => (e.name, e.base)) (es.map stringSwitch) = some es := by
  have read : ((es.map fun e => (e.name, e.base)).zip (es.map stringSwitch)).mapM
      (fun p => enumOf? p.1 p.2) = some es := by
    rw [List.zip_map']
    induction es with
    | nil => rfl
    | cons e es ih =>
      rw [List.map_cons, List.mapM_cons, ih, enumOf?_stringSwitch]
      rfl
  rw [enumsOf?, read]
  simp

/-- A document is recovered from its generated file, of any flavour and below any header. -/
lemma recover?_render (f : Flavour) (o : Origin) {d : Document} (wf : d.WellFormed) :
    recover? (render f o d) = some d := by
  have package : package? (textLines (render f o d).toList) = some d.package := by
    rw [textLines_render_header f o wf]
    exact package?_append (not_isClause_behindLines f wf)
  rw [recover?, package, declarations_render f o wf, filterMap_behindLines f wf,
    switches?_stringForm f o wf]
  show (enumsOf? _ _).bind _ = _
  rw [enumsOf?_stringSwitch]
  rfl

/-- Generated files of documents that are read from some texts are different unless the documents
are the same, and each gives its document back. -/
theorem render_injective {source₁ source₂ : String} {d₁ d₂ : Document} (f₁ f₂ : Flavour)
    (o₁ o₂ : Origin) (read₁ : Document.parse source₁ = .ok d₁)
    (read₂ : Document.parse source₂ = .ok d₂) :
    (render f₁ o₁ d₁ = render f₂ o₂ d₂ → d₁ = d₂) ∧ recover? (render f₁ o₁ d₁) = some d₁ := by
  have back₁ := recover?_render f₁ o₁ (Document.wellFormed_of_parse read₁).1
  have back₂ := recover?_render f₂ o₂ (Document.wellFormed_of_parse read₂).1
  refine ⟨?_, back₁⟩
  intro same
  rw [same, back₂] at back₁
  exact (Option.some.inj back₁).symm

/-- Documents that differ in one base type have different files, and a header that looks like code
does not hide a document with a tag that does. -/
theorem render_injective_bases :
    ∃ d₁ d₂,
      Document.parse "package p type T enum \x7b a `)\ntype U int` \x7d" = .ok d₁ ∧
      Document.parse "package p type T enum byte \x7b a `)\ntype U int` \x7d" = .ok d₂ ∧
      render .json ⟨"f", "me\npackage q\n\ntype T byte", ⟨2015, 3, 7, 9, 5, 1⟩⟩ d₁ ≠
        render .xml ⟨"g", "me", ⟨2015, 3, 7, 9, 5, 2⟩⟩ d₂ ∧
      recover? (render .json ⟨"f", "me\npackage q\n\ntype T byte", ⟨2015, 3, 7, 9, 5, 1⟩⟩ d₁) =
        some d₁ := by
  have read₁ : Document.parse "package p type T enum \x7b a `)\ntype U int` \x7d" =
      .ok ⟨"p", [⟨"T", .int, [⟨"a", ")\ntype U int"⟩]⟩]⟩ := by cbv
  have read₂ : Document.parse "package p type T enum byte \x7b a `)\ntype U int` \x7d" =
      .ok ⟨"p", [⟨"T", .byte, [⟨"a", ")\ntype U int"⟩]⟩]⟩ := by cbv
  obtain ⟨inj, back⟩ := render_injective .json .xml
    ⟨"f", "me\npackage q\n\ntype T byte", ⟨2015, 3, 7, 9, 5, 1⟩⟩
    ⟨"g", "me", ⟨2015, 3, 7, 9, 5, 2⟩⟩ read₁ read₂
  exact ⟨_, _, read₁, read₂, fun same => absurd (inj same) (by decide), back⟩

end EnumGen.Code
