import EnumGen.Proofs.Code.Constants
import EnumGen.Proofs.Code.Inverse

/-!
# The identifiers of a generated file

Types and constants share one scope, and the name of a constant is put together from the names of
its type and of its member with an underscore between, a character of names like any other. So names
that are told apart in a document can meet in the file: `A_B_C` is the member `B_C` of `A` as well as
the member `C` of `A_B`. This takes a type whose name goes on behind that of another one, or a member
that is called like the zero value, and nothing else does it (`nodup_identifiers_iff`).
-/

namespace EnumGen.Code

/-- The identifiers that a generated file declares at its top level, types first. -/
def identifiers? (text : String) : Option (List String) :=
  (blocks? text).map fun css => (types text).map Prod.fst ++ css.flatten.map Constant.name

/-- What the constants of an enum type are called behind the name of the type. -/
def endings (e : EnumType) : List String :=
  "Zero_" :: e.members.map Member.name

/-- Identifiers of the document meet. -/
inductive Collides (d : Document) : Prop
  /-- a member is called like the zero value of its type -/
  | zero {e} (mem : e ∈ d.enums) (member : "Zero_" ∈ e.members.map Member.name)
  /-- a type is called like a constant of another one -/
  | type {e e' : EnumType} {r} (mem : e ∈ d.enums) (mem' : e' ∈ d.enums)
    (longer : e'.name = e.name ++ "_" ++ r) (constant : r ∈ endings e)
  /-- a member of a type is called like a constant of another one -/
  | member {e e' : EnumType} {r s} (mem : e ∈ d.enums) (mem' : e' ∈ d.enums)
    (longer : e'.name = e.name ++ "_" ++ r) (constant : s ∈ endings e')
    (member : r ++ "_" ++ s ∈ e.members.map Member.name)

/-! ## Names that meet -/

lemma longer_of_append {n n' s s' : String} {l : List Char} (name : n'.toList = n.toList ++ l)
    (rest : '_' :: s.toList = l ++ '_' :: s'.toList) :
    n = n' ∨ ∃ r, n' = n ++ "_" ++ r ∧ s = r ++ "_" ++ s' := by
  cases l with
  | nil =>
    rw [List.append_nil, String.toList_inj] at name
    exact .inl name.symm
  | cons c l =>
    rw [List.cons_append, List.cons.injEq] at rest
    obtain ⟨rfl, rest⟩ := rest
    refine .inr ⟨String.ofList l, ?_, ?_⟩
    · rw [← String.toList_inj, name]
      simp
    · rw [← String.toList_inj, rest]
      simp

/-- Constants of different types meet only if one type is called like the other one with more behind
it. -/
lemma longer_of_constant_eq {n n' s s' : String} (same : n ++ "_" ++ s = n' ++ "_" ++ s') :
    n = n' ∨ (∃ r, n' = n ++ "_" ++ r ∧ s = r ++ "_" ++ s') ∨
      ∃ r, n = n' ++ "_" ++ r ∧ s' = r ++ "_" ++ s := by
  have lists : n.toList ++ '_' :: s.toList = n'.toList ++ '_' :: s'.toList := by
    simpa [← String.toList_inj] using same
  obtain ⟨l, name, rest⟩ | ⟨l, name, rest⟩ := List.append_eq_append_iff.mp lists
  · exact (longer_of_append name rest).imp_right .inl
  · obtain is | longer := longer_of_append name rest
    · exact .inl is.symm
    · exact .inr (.inr longer)

lemma ne_of_longer {n n' r : String} (longer : n' = n ++ "_" ++ r) : n ≠ n' := by
  rintro rfl
  have lengths := congrArg (·.toList.length) longer
  simp at lengths

/-- The underscore of the zero value is its last character. -/
lemma zero_ne_append {r s : String} (some_ : s ≠ "") : "Zero_" ≠ r ++ "_" ++ s := by
  intro same
  have nonempty : s.toList ≠ [] := fun is => some_ (String.toList_eq_nil_iff.mp is)
  have inside : '_' ∈ (r ++ "_" ++ s).toList.dropLast := by
    simp [List.dropLast_append_of_ne_nil, List.dropLast_cons_of_ne_nil nonempty]
  rw [← same] at inside
  revert inside
  decide

variable {d : Document}

lemma ne_empty_of_mem_endings {e : EnumType} (wf : e.WellFormed) {s : String}
    (mem : s ∈ endings e) : s ≠ "" := by
  rw [endings, List.mem_cons, List.mem_map] at mem
  obtain rfl | ⟨m, mem, rfl⟩ := mem
  · decide
  · obtain ⟨c, r, is, -⟩ := (wf.members m mem).name.1
    intro empty
    rw [empty] at is
    cases is

/-- A constant that meets one of a longer type belongs to a member. -/
lemma Collides.of_longer (wf : d.WellFormed) {e e' : EnumType} {r s s' : String}
    (mem : e ∈ d.enums) (mem' : e' ∈ d.enums) (longer : e'.name = e.name ++ "_" ++ r)
    (constant : s ∈ endings e) (constant' : s' ∈ endings e') (is : s = r ++ "_" ++ s') :
    Collides d := by
  subst is
  have ne := zero_ne_append (r := r) (ne_empty_of_mem_endings (wf.enums e' mem') constant')
  exact .member mem mem' longer constant' ((List.mem_cons.mp constant).resolve_left ne.symm)

/-! ## The identifiers of a document -/

/-- The constants of the enum types, by their names. -/
def constantNames (es : List EnumType) : List String :=
  es.flatMap fun e => (endings e).map (e.name ++ "_" ++ ·)

lemma mem_constantNames {es : List EnumType} {n : String} :
    n ∈ constantNames es ↔ ∃ e ∈ es, ∃ s ∈ endings e, e.name ++ "_" ++ s = n := by
  simp only [constantNames, List.mem_flatMap, List.mem_map]

lemma nodup_of_not_collides (wf : d.WellFormed) (names : (d.enums.map EnumType.name).Nodup)
    (members : ∀ e ∈ d.enums, (e.members.map Member.name).Nodup) (no : ¬Collides d) :
    (d.enums.map EnumType.name ++ constantNames d.enums).Nodup := by
  refine List.nodup_append.mpr ⟨names, List.nodup_flatMap.mpr ⟨?_, ?_⟩, ?_⟩
  · intro e mem
    have zero : "Zero_" ∉ e.members.map Member.name := fun member => no (.zero mem member)
    have labels := nodup_labels_stringSwitch (members e mem) zero
    rwa [labels_stringSwitch] at labels
  · -- Two types have different names, so a common constant would make one of them longer.
    refine (List.pairwise_map.mp names).imp_of_mem ?_
    intro e e' mem mem' other n at_ at_'
    obtain ⟨s, constant, rfl⟩ := List.mem_map.mp at_
    obtain ⟨s', constant', same⟩ := List.mem_map.mp at_'
    obtain is | ⟨r, longer, is⟩ | ⟨r, longer, is⟩ := longer_of_constant_eq same.symm
    · exact other is
    · exact no (.of_longer wf mem mem' longer constant constant' is)
    · exact no (.of_longer wf mem' mem longer constant' constant is)
  · intro n at_ n' at_' same
    obtain ⟨e', mem', rfl⟩ := List.mem_map.mp at_
    obtain ⟨e, mem, s, constant, rfl⟩ := mem_constantNames.mp at_'
    exact no (.type mem mem' same constant)

lemma not_collides_of_nodup
    (distinct : (d.enums.map EnumType.name ++ constantNames d.enums).Nodup) : ¬Collides d := by
  obtain ⟨-, constants, apart⟩ := List.nodup_append.mp distinct
  obtain ⟨within, between⟩ := List.nodup_flatMap.mp constants
  rintro (⟨mem, member⟩ | ⟨mem, mem', longer, constant⟩ | ⟨mem, mem', longer, constant, member⟩)
  · exact (List.nodup_cons.mp (within _ mem).of_map).1 member
  · exact apart _ (List.mem_map_of_mem mem') _ (mem_constantNames.mpr ⟨_, mem, _, constant, rfl⟩)
      longer
  · have symm : Std.Symm (Function.onFun List.Disjoint fun e =>
        (endings e).map (e.name ++ "_" ++ ·)) := ⟨fun _ _ => List.Disjoint.symm⟩
    have other := fun same => ne_of_longer longer (congrArg EnumType.name same)
    refine between.forall mem mem' other (List.mem_map_of_mem (List.mem_cons_of_mem _ member)) ?_
    refine List.mem_map.mpr ⟨_, constant, ?_⟩
    rw [longer]
    simp only [String.append_assoc]

lemma constants_eq_endings (e : EnumType) :
    zeroName e :: e.members.map (memberName e) = (endings e).map (e.name ++ "_" ++ ·) := by
  rw [endings, List.map_cons, ← zeroName_eq, List.map_map]
  rfl

lemma identifiers?_render (f : Flavour) (o : Origin) (wf : d.WellFormed) :
    identifiers? (render f o d) = some (d.enums.map EnumType.name ++
      d.enums.flatMap fun e => zeroName e :: e.members.map (memberName e)) := by
  rw [identifiers?, blocks?_render f o wf, types_render f o wf, Option.map_some, List.map_map,
    List.map_flatten, List.map_map, ← List.flatMap_def]
  simp only [Function.comp_def, map_name_constantsOf]

/-- Where the types of a document have different names, and so have the members of each of them, the
identifiers of the generated file are different exactly if none of them meet. -/
theorem nodup_identifiers_iff {source : String} (f : Flavour) (o : Origin)
    (read : Document.parse source = .ok d) (names : (d.enums.map EnumType.name).Nodup)
    (members : ∀ e ∈ d.enums, (e.members.map Member.name).Nodup) :
    ∃ ids, identifiers? (render f o d) = some ids ∧
      ids = d.enums.map EnumType.name ++
        d.enums.flatMap (fun e => zeroName e :: e.members.map (memberName e)) ∧
      (ids.Nodup ↔ ¬Collides d) := by
  obtain ⟨wf, -⟩ := Document.wellFormed_of_parse read
  refine ⟨_, identifiers?_render f o wf, rfl, ?_⟩
  simp only [constants_eq_endings]
  exact ⟨not_collides_of_nodup, nodup_of_not_collides wf names members⟩

/-- A type with a longer name does no harm as long as no constant of the shorter one reaches it. -/
theorem nodup_identifiers_longer :
    ∃ d, Document.parse "package p type A enum \x7b B C_B \x7d type A_C enum \x7b D \x7d" = .ok d ∧
      (d.enums.map EnumType.name).Nodup ∧ (∀ e ∈ d.enums, (e.members.map Member.name).Nodup) ∧
      ∃ ids, identifiers? (render .json ⟨"f", "me\nconst (", ⟨2015, 3, 7, 9, 5, 1⟩⟩ d) = some ids ∧
        ids.Nodup ∧ ¬Collides d := by
  have read : Document.parse "package p type A enum \x7b B C_B \x7d type A_C enum \x7b D \x7d" =
      .ok ⟨"p", [⟨"A", .int, [.ofName "B", .ofName "C_B"]⟩, ⟨"A_C", .int, [.ofName "D"]⟩]⟩ := by cbv
  obtain ⟨ids, found, is, distinct⟩ := nodup_identifiers_iff .json
    ⟨"f", "me\nconst (", ⟨2015, 3, 7, 9, 5, 1⟩⟩ read (by decide) (by decide)
  have nodup : ids.Nodup := by
    rw [is]
    decide
  exact ⟨_, read, by decide, by decide, ids, found, nodup, distinct.mp nodup⟩

/-- Two types with one member each, all with different names, and one constant that both declare. -/
theorem nodup_identifiers_clash :
    ∃ d, Document.parse "package p type A enum \x7b B_C \x7d type A_B enum \x7b C \x7d" = .ok d ∧
      (d.enums.map EnumType.name).Nodup ∧ (∀ e ∈ d.enums, (e.members.map Member.name).Nodup) ∧
      ∃ ids, identifiers? (render .std ⟨"f", "me", ⟨2015, 3, 7, 9, 5, 1⟩⟩ d) = some ids ∧
        ids = ["A", "A_B", "A_Zero_", "A_B_C", "A_B_Zero_", "A_B_C"] ∧ ¬ids.Nodup := by
  have read : Document.parse "package p type A enum \x7b B_C \x7d type A_B enum \x7b C \x7d" =
      .ok ⟨"p", [⟨"A", .int, [.ofName "B_C"]⟩, ⟨"A_B", .int, [.ofName "C"]⟩]⟩ := by cbv
  obtain ⟨wf, -⟩ := Document.wellFormed_of_parse read
  refine ⟨_, read, by decide, by decide, _, identifiers?_render .std _ wf, by decide, by decide⟩

end EnumGen.Code
