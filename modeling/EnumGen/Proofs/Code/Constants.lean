import EnumGen.Proofs.Code.Recovery

/-!
# The constants of a generated file

A block of constants declares one constant a line. The first line gives a type and `iota`, which the
lines below it repeat, and the value of a constant is the number of its line. `blocks?` reads all
blocks of a generated file in their order. For the file of a well-formed document they are the
constants of its enum types, one block each (`blocks?_render`).
-/

namespace EnumGen.Code

/-! ## Reading a block -/

/-- A constant with its type and its value. -/
structure Constant where
  name : String
  type : String
  value : Nat
  deriving DecidableEq, Repr

/-- The type behind the name of a constant, where the line goes on with one and with `iota`. -/
def typeBehind? : List Char → Option (Option String)
  | [] => some none
  | _ :: rest => (rest.dropSuffix? " = iota".toList).map (some ∘ String.ofList)

/-- The name of a constant, and its type if the line gives one. -/
def constantLine? (line : List Char) : Option (String × Option String) := do
  let spec ← line.dropPrefix? ['\t']
  let type? ← typeBehind? (spec.dropWhile (· != ' '))
  return (String.ofList (spec.takeWhile (· != ' ')), type?)

/-- The constants on the lines of a block, the first of which has the given number. A line without a
type repeats what is above it. -/
def constants? : Option String → Nat → List (List Char) → Option (List Constant)
  | _, _, [] => some []
  | above?, number, line :: ls => do
    let (name, type?) ← constantLine? line
    let type ← type?.or above?
    let cs ← constants? (some type) (number + 1) ls
    return ⟨name, type, number⟩ :: cs

/-- The blocks of constants among lines, each up to the next parenthesis at the start of a line. -/
def blocksIn? : List (List Char) → Option (List (List Constant))
  | [] => some []
  | line :: ls =>
    if line = "const (".toList then do
      let cs ← constants? none 0 (ls.takeWhile (· != [')']))
      let css ← blocksIn? ls
      return cs :: css
    else blocksIn? ls

/-- The blocks of constants of a generated file. -/
def blocks? (text : String) : Option (List (List Constant)) :=
  blocksIn? (declarations (textLines text.toList))

/-- The types that a generated file declares, with their base types. -/
def types (text : String) : List (String × IntType) :=
  (declarations (textLines text.toList)).filterMap typeOf?

/-! ## The block of an enum type -/

/-- The constants of an enum type: the zero value is numbered first, and then the members are in the
order of their declaration. -/
def constantsOf (e : EnumType) : List Constant :=
  ⟨zeroName e, e.name, 0⟩ :: (e.members.zipIdx 1).map fun p => ⟨memberName e p.1, e.name, p.2⟩

lemma map_name_constantsOf (e : EnumType) :
    (constantsOf e).map Constant.name = zeroName e :: e.members.map (memberName e) := by
  have first : (e.members.zipIdx 1).map (memberName e ∘ Prod.fst) =
      e.members.map (memberName e) := by
    rw [← List.map_map, List.zipIdx_map_fst]
  rw [constantsOf, List.map_cons, List.map_map]
  exact congrArg (zeroName e :: ·) first

lemma map_value_constantsOf (e : EnumType) :
    (constantsOf e).map Constant.value = List.range (e.members.length + 1) := by
  have later : (e.members.zipIdx 1).map Prod.snd = List.range' 1 e.members.length :=
    List.zipIdx_map_snd 1 e.members
  rw [constantsOf, List.map_cons, List.map_map, List.range_eq_range', List.range'_succ]
  exact congrArg (0 :: ·) later

lemma type_of_mem_constantsOf {e : EnumType} {c : Constant} (mem : c ∈ constantsOf e) :
    c.type = e.name := by
  obtain rfl | mem := List.mem_cons.mp mem
  · rfl
  · obtain ⟨p, -, rfl⟩ := List.mem_map.mp mem
    rfl

lemma constantLine?_append {name rest : List Char} (no : ' ' ∉ name)
    (behind : ∀ c ∈ rest.head?, c = ' ') :
    constantLine? ('\t' :: (name ++ rest)) =
      (typeBehind? rest).map fun type? => (String.ofList name, type?) := by
  have cut := cut_append no rest behind
  have drop : ('\t' :: (name ++ rest)).dropPrefix? ['\t'] = some (name ++ rest) :=
    List.dropPrefix?_append_of_beq _ (beq_self_eq_true ['\t'])
  rw [constantLine?, drop]
  show (typeBehind? _).bind _ = _
  rw [cut.1, cut.2]
  cases typeBehind? rest <;> rfl

lemma constantLine?_name {name : String} (no : ' ' ∉ name.toList) :
    constantLine? ("\t" ++ name).toList = some (name, none) := by
  have line : ("\t" ++ name).toList = '\t' :: (name.toList ++ []) := by simp
  rw [line, constantLine?_append no (by simp), typeBehind?, Option.map_some, String.ofList_toList]

lemma constantLine?_typed {name type : String} (no : ' ' ∉ name.toList) :
    constantLine? ("\t" ++ name ++ " " ++ type ++ " = iota").toList = some (name, some type) := by
  have line : ("\t" ++ name ++ " " ++ type ++ " = iota").toList =
      '\t' :: (name.toList ++ ' ' :: (type.toList ++ " = iota".toList)) := by simp
  have suffix : (type.toList ++ " = iota".toList).dropSuffix? " = iota".toList =
      some type.toList :=
    List.dropSuffix?_eq_some_iff.mpr ⟨_, rfl, beq_self_eq_true _⟩
  rw [line, constantLine?_append no (by simp), typeBehind?, suffix]
  simp

lemma constants?_cons {line : List Char} {name type : String} {own? above? : Option String}
    (reads : constantLine? line = some (name, own?)) (is : own?.or above? = some type)
    (number : Nat) (ls : List (List Char)) :
    constants? above? number (line :: ls) =
      (constants? (some type) (number + 1) ls).map (⟨name, type, number⟩ :: ·) := by
  rw [constants?, reads]
  show (own?.or above?).bind _ = _
  rw [is]
  show (constants? _ _ _).bind _ = _
  cases constants? (some type) (number + 1) ls <;> rfl

lemma constants?_names {type : String} {number : Nat} {names : List String}
    (no : ∀ name ∈ names, ' ' ∉ name.toList) :
    constants? (some type) number ((names.map ("\t" ++ ·)).map String.toList) =
      some ((names.zipIdx number).map fun p => ⟨p.1, type, p.2⟩) := by
  induction names generalizing number with
  | nil => rfl
  | cons name names ih =>
    rw [List.forall_mem_cons] at no
    rw [List.map_cons, List.map_cons, constants?_cons (constantLine?_name no.1) rfl, ih no.2]
    rfl

/-- The lines between the parentheses of a block. -/
def specLines (e : EnumType) : List String :=
  ("\t" ++ zeroName e ++ " " ++ e.name ++ " = iota") ::
    (e.members.map (memberName e)).map ("\t" ++ ·)

lemma constants?_specLines {e : EnumType} (wf : e.WellFormed) :
    constants? none 0 ((specLines e).map String.toList) = some (constantsOf e) := by
  have name : ' ' ∉ e.name.toList := wf.name.not_mem (by decide)
  have zero : ' ' ∉ (zeroName e).toList := by
    simp [zeroName, name]
  have members : ∀ n ∈ e.members.map (memberName e), ' ' ∉ n.toList := by
    rw [List.forall_mem_map]
    intro m mem
    have member : ' ' ∉ m.name.toList := (wf.members m mem).name.not_mem (by decide)
    simp [memberName, name, member]
  rw [specLines, List.map_cons, constants?_cons (constantLine?_typed zero) rfl,
    constants?_names members, List.zipIdx_map, List.map_map]
  rfl

/-! ## The blocks of a rendered file -/

/-- Lines that do not open a block are passed over. -/
lemma blocksIn?_append {ls rest : List (List Char)} (no : ∀ l ∈ ls, l.head? ≠ some 'c') :
    blocksIn? (ls ++ rest) = blocksIn? rest := by
  induction ls with
  | nil => rfl
  | cons l ls ih =>
    rw [List.forall_mem_cons] at no
    have ne : l ≠ "const (".toList := by
      rintro rfl
      exact no.1 rfl
    rw [List.cons_append, blocksIn?, if_neg ne]
    exact ih no.2

/-- A block goes on to the parenthesis behind its indented lines, and what follows is read on its
own. -/
lemma blocksIn?_block {body rest : List (List Char)} {cs : List Constant}
    (reads : constants? none 0 body = some cs) (indented : ∀ l ∈ body, l.head? = some '\t') :
    blocksIn? ("const (".toList :: (body ++ [')'] :: rest)) = (blocksIn? rest).map (cs :: ·) := by
  have inside : [')'] ∉ body := fun mem => nomatch indented _ mem
  have later : blocksIn? (body ++ [')'] :: rest) = blocksIn? rest := by
    rw [blocksIn?_append]
    · rw [blocksIn?, if_neg (by decide)]
    · intro l mem
      rw [indented l mem]
      decide
  rw [blocksIn?, if_pos rfl, (cut_append inside _ (by simp)).1, reads, later]
  cases blocksIn? rest <;> rfl

/-- The lines of an enum type hold one block. -/
lemma blocksIn?_enumLines (f : Flavour) {e : EnumType} (wf : e.WellFormed)
    (rest : List (List Char)) :
    blocksIn? ((enumLines f e).map String.toList ++ rest) =
      (blocksIn? rest).map (constantsOf e :: ·) := by
  have split : (enumLines f e).map String.toList ++ rest =
      ["", "type " ++ e.name ++ " " ++ e.base.name, ""].map String.toList ++
        "const (".toList :: ((specLines e).map String.toList ++ [')'] ::
          (("" :: (stringLines e ++ methodLines f e)).map String.toList ++ rest)) := by
    simp [enumLines, basicLines, typeLines, constLines, specLines]
  have before : ∀ l ∈ ["", "type " ++ e.name ++ " " ++ e.base.name, ""].map String.toList,
      l.head? ≠ some 'c' := by
    simp
  have indented : ∀ l ∈ (specLines e).map String.toList, l.head? = some '\t' := by
    simp +contextual [specLines, or_imp]
  have behind : ∀ l ∈ ("" :: (stringLines e ++ methodLines f e)).map String.toList,
      l.head? ≠ some 'c' := by
    rw [List.forall_mem_map, List.forall_mem_cons]
    exact ⟨by decide, head?_methodLines (by decide) f e⟩
  rw [split, blocksIn?_append before, blocksIn?_block (constants?_specLines wf) indented,
    blocksIn?_append behind]

/-- The blocks of a rendered file are the constants of its enum types, whatever stands in the
header. -/
lemma blocks?_render (f : Flavour) (o : Origin) {d : Document} (wf : d.WellFormed) :
    blocks? (render f o d) = some (d.enums.map constantsOf) := by
  have imports : ∀ l ∈ (importLines f.imports).map String.toList, l.head? ≠ some 'c' := by
    cases f <;> simp [importLines, Flavour.imports]
  have enums := wf.enums
  rw [blocks?, declarations_render f o wf, behindLines, List.map_append, blocksIn?_append imports]
  generalize d.enums = es at enums ⊢
  induction es with
  | nil => rfl
  | cons e es ih =>
    rw [List.forall_mem_cons] at enums
    rw [List.flatMap_cons, List.map_append, blocksIn?_enumLines f enums.1, ih enums.2]
    rfl

lemma types_render (f : Flavour) (o : Origin) {d : Document} (wf : d.WellFormed) :
    types (render f o d) = d.enums.map fun e => (e.name, e.base) := by
  rw [types, declarations_render f o wf, filterMap_behindLines f wf]

end EnumGen.Code
