import EnumGen.Proofs.Code.Constants

/-!
# The ordinals of a generated file

The constants of an enum type are enumOfSize without regard to the base type: the zero value comes
first, and each member has the number of its place. So the last member has the largest number, and
all of them are values of the base type exactly if this one is (`ordinals_fit_iff`). An `int8` holds
127 members, and the next one overflows.
-/

namespace EnumGen

/-! ## The ranges of the integer types -/

namespace IntType

/-- Values of the type may be negative. -/
def isSigned : IntType → Bool
  | int | int8 | int16 | int32 | int64 => true
  | byte | uint | uint8 | uint16 | uint32 | uint64 => false

/-- The width of the type, where `int` and `uint` have that of a machine word. -/
def bits : IntType → Nat
  | byte | int8 | uint8 => 8
  | int16 | uint16 => 16
  | int32 | uint32 => 32
  | int | uint | int64 | uint64 => 64

/-- The least value of the type. -/
def min (t : IntType) : Int :=
  if t.isSigned then -2 ^ (t.bits - 1) else 0

/-- The largest value of the type. -/
def max (t : IntType) : Nat :=
  2 ^ (if t.isSigned then t.bits - 1 else t.bits) - 1

/-- The number is a value of the type. -/
def InRange (t : IntType) (v : Int) : Prop :=
  t.min ≤ v ∧ v ≤ t.max

instance (t : IntType) (v : Int) : Decidable (t.InRange v) :=
  inferInstanceAs (Decidable (t.min ≤ v ∧ v ≤ t.max))

lemma min_le_zero (t : IntType) : t.min ≤ 0 := by
  cases t <;> decide

/-- Only the upper bound matters to a number that counts. -/
lemma inRange_natCast {t : IntType} {n : Nat} : t.InRange n ↔ n ≤ t.max := by
  have least := t.min_le_zero
  rw [InRange]
  omega

/-- Numbers from zero on are in the range if the last of them is. -/
lemma inRange_range_iff {t : IntType} {n : Nat} :
    (∀ v ∈ List.range (n + 1), t.InRange v) ↔ n ≤ t.max := by
  simp only [List.mem_range, inRange_natCast]
  constructor
  · intro all
    exact all n (by omega)
  · intro last v le
    omega

end IntType

namespace Code

/-! ## The numbers of the constants -/

lemma inRange_constantsOf_iff {t : IntType} {e : EnumType} :
    (∀ c ∈ constantsOf e, t.InRange c.value) ↔ e.members.length ≤ t.max := by
  rw [← IntType.inRange_range_iff, ← map_value_constantsOf, List.forall_mem_map]

/-! ## Types with many members -/

/-- A type with as many members as asked for. -/
def enumOfSize (t : IntType) (n : Nat) : EnumType :=
  ⟨"T", t, (List.range n).map fun i => .ofName ("M" ++ toString i)⟩

lemma isIdentifier_numberedName (i : Nat) : IsIdentifier ("M" ++ toString i) := by
  have text : ("M" ++ toString i).toList = 'M' :: (toString i).toList := by simp
  constructor
  · refine ⟨'M', _, text, isWordStart_iff.mp (by decide), ?_⟩
    rw [Nat.toString_eq_ofList_toDigits, String.toList_ofList]
    intro c mem
    have digit := Nat.isDigit_of_mem_toDigits (by decide) (by decide) mem
    exact isWordChar_iff.mp (Bool.or_eq_true_iff.mpr (.inr digit))
  · intro reserved
    have other : ∀ w ∈ TokenKind.reserved.map Prod.fst, w.toList.head? ≠ some 'M' := by decide
    exact other _ reserved (congrArg List.head? text)

lemma wellFormed_enumOfSize (t : IntType) (n : Nat) : (enumOfSize t n).WellFormed := by
  have name : IsIdentifier "T" := by decide
  refine ⟨name, ?_⟩
  rw [enumOfSize, List.forall_mem_map]
  intro i _
  exact ⟨isIdentifier_numberedName i, (isIdentifier_numberedName i).backtick_not_mem⟩

lemma nodup_enumOfSize (t : IntType) (n : Nat) :
    ((enumOfSize t n).members.map Member.name).Nodup := by
  have names : (enumOfSize t n).members.map Member.name =
      (List.range n).map fun i => "M" ++ toString i := List.map_map
  rw [names]
  refine List.nodup_range.map ?_
  intro i i' same
  have digits : Nat.toDigits 10 i = Nat.toDigits 10 i' := by
    simpa [← String.toList_inj, Nat.toString_eq_ofList_toDigits] using same
  rw [← Nat.ofDigitChars_ten_toDigits (n := i), digits, Nat.ofDigitChars_ten_toDigits]

/-- The only type of a file may have any number of members. -/
lemma parse_enumOfSize (t : IntType) (n : Nat) :
    Document.parse (Document.text ⟨"p", [enumOfSize t n]⟩) = .ok ⟨"p", [enumOfSize t n]⟩ := by
  have package : IsIdentifier "p" := by decide
  refine Document.WellFormed.parse_eq_ok ⟨package, ?_⟩ (Document.writtenAs_text _)
  rw [List.forall_mem_singleton]
  exact wellFormed_enumOfSize t n

/-! ## The main statement -/

/-- Each block of a generated file numbers the zero value of a type with 0 and the members from 1
on. These are values of the base type exactly if it has one for the last member. -/
theorem ordinals_fit_iff {source : String} {d : Document} (f : Flavour) (o : Origin)
    (read : Document.parse source = .ok d) :
    types (render f o d) = d.enums.map (fun e => (e.name, e.base)) ∧
      ∃ blocks, blocks? (render f o d) = some blocks ∧
        List.Forall₂ (fun e cs =>
          cs.map Constant.name = zeroName e :: e.members.map (memberName e) ∧
            (∀ c ∈ cs, c.type = e.name) ∧
            cs.map Constant.value = List.range (e.members.length + 1) ∧
            ((∀ c ∈ cs, e.base.InRange c.value) ↔ e.members.length ≤ e.base.max))
          d.enums blocks := by
  obtain ⟨wf, -⟩ := Document.wellFormed_of_parse read
  refine ⟨types_render f o wf, _, blocks?_render f o wf, ?_⟩
  rw [List.forall₂_map_right_iff, List.forall₂_same]
  intro e _
  exact ⟨map_name_constantsOf e, fun _ => type_of_mem_constantsOf, map_value_constantsOf e,
    inRange_constantsOf_iff⟩

/-- An `int8` has values for 127 members. -/
theorem ordinals_fit_int8 :
    ∃ d, Document.parse (Document.text ⟨"p", [enumOfSize .int8 127]⟩) = .ok d ∧
      ∃ cs, blocks? (render .std ⟨"f", "me", ⟨2015, 3, 7, 9, 5, 1⟩⟩ d) = some [cs] ∧
        cs.map Constant.value = List.range 128 ∧ ∀ c ∈ cs, IntType.int8.InRange c.value := by
  have read := parse_enumOfSize .int8 127
  obtain ⟨-, blocks, found, each⟩ :=
    ordinals_fit_iff .std ⟨"f", "me", ⟨2015, 3, 7, 9, 5, 1⟩⟩ read
  obtain ⟨cs, _, ⟨-, -, values, fit⟩, rest, rfl⟩ := List.forall₂_cons_left_iff.mp each
  obtain rfl := List.forall₂_nil_left_iff.mp rest
  have full : (enumOfSize .int8 127).members.length = 127 := by simp [enumOfSize]
  rw [full] at values fit
  exact ⟨_, read, cs, found, values, fit.mpr (by decide)⟩

/-- The 128th member of an `int8` has a number that overflows. -/
theorem ordinals_fit_overflow :
    ∃ d, Document.parse (Document.text ⟨"p", [enumOfSize .int8 128]⟩) = .ok d ∧
      d.enums = [enumOfSize .int8 128] ∧ ((enumOfSize .int8 128).members.map Member.name).Nodup ∧
      ∃ cs, blocks? (render .std ⟨"f", "me", ⟨2015, 3, 7, 9, 5, 1⟩⟩ d) = some [cs] ∧
        ⟨"T_M127", "T", 128⟩ ∈ cs ∧ ¬IntType.int8.InRange 128 := by
  have read := parse_enumOfSize .int8 128
  obtain ⟨wf, -⟩ := Document.wellFormed_of_parse read
  have last : (enumOfSize .int8 128).members[127]? = some (.ofName "M127") := by
    rw [enumOfSize, List.getElem?_map, List.getElem?_range (by decide)]
    decide
  have place : (Member.ofName "M127", 128) ∈ (enumOfSize .int8 128).members.zipIdx 1 :=
    List.mk_mem_zipIdx_iff_le_and_getElem?_sub.mpr ⟨by decide, last⟩
  refine ⟨_, read, rfl, nodup_enumOfSize .int8 128, _, blocks?_render .std _ wf, ?_, by decide⟩
  exact List.mem_cons_of_mem _ (List.mem_map.mpr ⟨_, place, by decide⟩)

end Code

end EnumGen
