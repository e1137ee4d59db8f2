import EnumGen.Proofs.Code.Switches
import Mathlib.Data.List.Nodup

/-!
# Switches that undo each other

A value is written as the tag of its member, and a tag is read as the value of the first member that
has it. In the text of a generated file these are two switches for each enum type, and the one
undoes the other for all members exactly if the tags are distinct and none of them is `0`, which
stands for the zero value (`switches_invert_iff`).
-/

namespace EnumGen.Code

/-- The labels of the switch in their order. -/
def Switch.labels (s : Switch) : List String :=
  s.cases.map Prod.fst

lemma Switch.isSome_find?_iff {s : Switch} {label : String} :
    (s.find? label).isSome ↔ label ∈ s.labels := by
  rw [find?, List.lookup_isSome_iff, labels, List.mem_map]
  exact exists_congr fun c => and_congr_right fun _ => beq_iff_eq.trans eq_comm

/-- A case is found by its label if no other case has the label. -/
lemma Switch.find?_eq_some_of_mem {s : Switch} {label result : String} (distinct : s.labels.Nodup)
    (mem : (label, result) ∈ s.cases) : s.find? label = some result := by
  obtain ⟨before, after, split⟩ := List.append_of_mem mem
  rw [labels, split, List.map_append, List.map_cons, List.nodup_middle, List.nodup_cons] at distinct
  refine List.lookup_eq_some_iff.mpr ⟨before, after, split, ?_⟩
  intro c earlier
  rw [bne_iff_ne]
  rintro rfl
  exact distinct.1 (List.mem_append_left _ (List.mem_map.mpr ⟨c, earlier, rfl⟩))

lemma zeroName_eq (e : EnumType) : zeroName e = e.name ++ "_" ++ "Zero_" := by
  rw [zeroName, String.append_assoc]
  rfl

lemma constant_inj {name a b : String} : name ++ "_" ++ a = name ++ "_" ++ b ↔ a = b := by
  simp [← String.toList_inj]

variable {e : EnumType}

lemma labels_stringSwitch : (stringSwitch e).labels =
    (("Zero_" :: e.members.map Member.name).map (e.name ++ "_" ++ ·)) := by
  simp [Switch.labels, stringSwitch, zeroName_eq, memberName]

lemma labels_scanSwitch : (scanSwitch e).labels = "0" :: e.members.map Member.tag := by
  simp [Switch.labels, scanSwitch]

lemma nodup_labels_stringSwitch (names : (e.members.map Member.name).Nodup)
    (zero : "Zero_" ∉ e.members.map Member.name) : (stringSwitch e).labels.Nodup := by
  rw [labels_stringSwitch]
  exact (List.nodup_cons.mpr ⟨zero, names⟩).map fun _ _ => constant_inj.mp

lemma find?_stringSwitch (names : (e.members.map Member.name).Nodup)
    (zero : "Zero_" ∉ e.members.map Member.name) {m : Member} (mem : m ∈ e.members) :
    (stringSwitch e).find? (memberName e m) = some m.tag :=
  Switch.find?_eq_some_of_mem (nodup_labels_stringSwitch names zero)
    (List.mem_cons_of_mem _ (List.mem_map_of_mem mem))

lemma find?_scanSwitch_zero : (scanSwitch e).find? "0" = some (zeroName e) :=
  List.lookup_cons_self

/-- Tags lead back to their members exactly if none of them is taken, by another member or by the
zero value. -/
lemma find?_scanSwitch_iff (names : (e.members.map Member.name).Nodup)
    (zero : "Zero_" ∉ e.members.map Member.name) :
    (∀ m ∈ e.members, (scanSwitch e).find? m.tag = some (memberName e m)) ↔
      (e.members.map Member.tag).Nodup ∧ "0" ∉ e.members.map Member.tag := by
  constructor
  · intro back
    constructor
    · -- Members with one tag are led to one constant, and so they have one name.
      refine (List.nodup_map_iff_inj_on names.of_map).mpr ?_
      intro m mem m' mem' same
      have found := back m mem
      rw [same, back m' mem', Option.some_inj] at found
      exact List.inj_on_of_nodup_map names mem mem' (constant_inj.mp found).symm
    · intro clash
      obtain ⟨m, mem, tag⟩ := List.mem_map.mp clash
      have found := back m mem
      rw [tag, find?_scanSwitch_zero, Option.some_inj, zeroName_eq] at found
      exact zero (List.mem_map.mpr ⟨m, mem, (constant_inj.mp found).symm⟩)
  · rintro ⟨distinct, free⟩ m mem
    have labels : (scanSwitch e).labels.Nodup := by
      rw [labels_scanSwitch]
      exact List.nodup_cons.mpr ⟨free, distinct⟩
    exact Switch.find?_eq_some_of_mem labels (List.mem_cons_of_mem _ (List.mem_map_of_mem mem))

/-- In the text of a generated file, `scanString` accepts `0` and the tags, `String` gives the tags,
and the one undoes the other for all members exactly if the tags are distinct and none is `0`. -/
theorem switches_invert_iff {source : String} {d : Document} {f : Flavour} {i : Nat} {e : EnumType}
    (o : Origin) (read : Document.parse source = .ok d) (scans : f ≠ .std)
    (position : d.enums[i]? = some e) (names : (e.members.map Member.name).Nodup)
    (zero : "Zero_" ∉ e.members.map Member.name) :
    ∃ ss rs, stringForm.switches? (render f o d) = some ss ∧
      scanForm.switches? (render f o d) = some rs ∧
      ss.map Switch.receiver = d.enums.map EnumType.name ∧
      rs.map Switch.receiver = d.enums.map (fun e => "*" ++ e.name) ∧
      ∃ s r, ss[i]? = some s ∧ rs[i]? = some r ∧
        (∀ text, (r.find? text).isSome ↔ text = "0" ∨ text ∈ e.members.map Member.tag) ∧
        r.find? "0" = some (zeroName e) ∧
        s.labels.Nodup ∧ (∀ m ∈ e.members, s.find? (memberName e m) = some m.tag) ∧
        ((∀ m ∈ e.members, (s.find? (memberName e m)).bind r.find? = some (memberName e m)) ↔
          (e.members.map Member.tag).Nodup ∧ "0" ∉ e.members.map Member.tag) := by
  obtain ⟨wf, -⟩ := Document.wellFormed_of_parse read
  refine ⟨_, _, switches?_stringForm f o wf, switches?_scanForm o wf scans, ?_, ?_,
    stringSwitch e, scanSwitch e, ?_, ?_, ?_, find?_scanSwitch_zero,
    nodup_labels_stringSwitch names zero, fun m mem => find?_stringSwitch names zero mem, ?_⟩
  · rw [List.map_map]
    rfl
  · rw [List.map_map]
    rfl
  · rw [List.getElem?_map, position, Option.map_some]
  · rw [List.getElem?_map, position, Option.map_some]
  · intro text
    rw [Switch.isSome_find?_iff, labels_scanSwitch, List.mem_cons]
  · rw [← find?_scanSwitch_iff names zero]
    refine forall₂_congr fun m mem => ?_
    rw [find?_stringSwitch names zero mem, Option.bind_some]

/-- Tags that look like code are read as they are, below a header with a line of its own, and the
tag `0` is not led back to its member. -/
theorem switches_invert_clash :
    ∃ d e,
      Document.parse ("package p type A enum \x7b \x7d " ++
        "type T enum \x7b a `\n\tcase 0:` b `\"0\"` c `0` \x7d") = .ok d ∧
      Flavour.json ≠ .std ∧ d.enums[1]? = some e ∧ (e.members.map Member.name).Nodup ∧
      "Zero_" ∉ e.members.map Member.name ∧
      ∃ ss rs,
        stringForm.switches? (render .json ⟨"f", "me\npackage q", ⟨2015, 3, 7, 9, 5, 1⟩⟩ d) =
          some ss ∧
        scanForm.switches? (render .json ⟨"f", "me\npackage q", ⟨2015, 3, 7, 9, 5, 1⟩⟩ d) =
          some rs ∧
        ss.map Switch.receiver = ["A", "T"] ∧ rs.map Switch.receiver = ["*A", "*T"] ∧
        ∃ s r, ss[1]? = some s ∧ rs[1]? = some r ∧ (r.find? "\n\tcase 0:").isSome ∧
          r.find? "0" = some "T_Zero_" ∧ s.find? "T_b" = some "\"0\"" ∧
          ¬∀ m ∈ e.members, (s.find? (memberName e m)).bind r.find? = some (memberName e m) := by
  let e : EnumType := ⟨"T", .int, [⟨"a", "\n\tcase 0:"⟩, ⟨"b", "\"0\""⟩, ⟨"c", "0"⟩]⟩
  have read : Document.parse ("package p type A enum \x7b \x7d " ++
      "type T enum \x7b a `\n\tcase 0:` b `\"0\"` c `0` \x7d") =
        .ok ⟨"p", [⟨"A", .int, []⟩, e]⟩ := by cbv
  have scans : Flavour.json ≠ .std := by decide
  have names : (e.members.map Member.name).Nodup := by decide
  have zero : "Zero_" ∉ e.members.map Member.name := by decide
  have constants : zeroName e = "T_Zero_" ∧ memberName e ⟨"b", "\"0\""⟩ = "T_b" := by decide
  obtain ⟨ss, rs, strings, texts, receivers, pointers, s, r, s?, r?, accepts, first, -, tags,
    back⟩ := switches_invert_iff (i := 1) ⟨"f", "me\npackage q", ⟨2015, 3, 7, 9, 5, 1⟩⟩ read scans
      rfl names zero
  refine ⟨_, e, read, scans, rfl, names, zero, ss, rs, strings, texts, receivers, ?_, s, r, s?, r?,
    (accepts _).mpr (by decide), ?_, ?_, ?_⟩
  · rw [pointers]
    decide
  · rw [← constants.1]
    exact first
  · rw [← constants.2]
    exact tags _ (by decide)
  · rw [back]
    decide

end EnumGen.Code
