import EnumGen.Proofs.Files.Siblings
import Mathlib.Data.List.TakeWhile
import Mathlib.Tactic.Lemma

/-!
# Where outputs go

The output of `a.enum` is `a.go`. Two names are exceptions: nothing is cut off from `.enum`, whose
dot starts no extension, so its output is `.enum.go`; and what is left of `..enum` is `..`, the
directory above. Different names still have different outputs, but for `.enum` and `.enum.enum`
(`outputPiece_inj`), and in a directory without links no output takes the place of an input
(`Placed.target_ne_source`).
-/

namespace EnumGen

/-! ## The names of outputs -/

/-- The extension of inputs, with its dot. -/
def inputExtension : List Char := ".enum".toList

/-- What stands in front of the new extension, by what stood in front of the old one. -/
def outputStem (stem : List Char) : List Char :=
  if stem = [] then inputExtension else stem

/-- What takes the place of an input's name. -/
def outputPiece (stem : List Char) : List Char :=
  if stem = ['.'] then ['.', '.'] else outputStem stem ++ ".go".toList

variable {pre stem : List Char}

lemma Path.splitAfterLast_append {c : Char} {before after : List Char}
    (lead : before = [] ∨ before.getLast? = some c) (no : c ∉ after) :
    splitAfterLast c (before ++ after) = (before, after) := by
  have passes : ∀ a ∈ after.reverse, (a != c) = true := by
    intro a at_
    rw [bne_iff_ne]
    rintro rfl
    exact no (List.mem_reverse.mp at_)
  rw [splitAfterLast, List.reverse_append, List.dropWhile_append_of_pos passes,
    List.takeWhile_append_of_pos passes]
  obtain rfl | ends := lead
  · simp
  · obtain ⟨body, rfl⟩ := List.getLast?_eq_some_iff.mp ends
    simp

lemma Path.splitExtension?_input (stem : List Char) :
    splitExtension? (stem ++ inputExtension) =
      if stem = [] then none else some (stem, "enum".toList) := by
  have dot : stem ++ inputExtension = (stem ++ ['.']) ++ "enum".toList := by
    rw [List.append_assoc]
    rfl
  rw [splitExtension?, dot, splitAfterLast_append (.inr List.getLast?_concat) (by decide)]
  cases stem with
  | nil => rfl
  | cons c s =>
    cases s with
    | nil => rfl
    | cons c' s =>
      rw [if_neg (List.cons_ne_nil _ _)]
      have cut : (c' :: s ++ ['.']).dropLast = c' :: s := List.dropLast_concat
      exact congrArg (fun stem => some (c :: stem, _)) cut

lemma Path.dropTrailing_input (s : List Char) :
    (dropTrailing (s ++ inputExtension).reverse).reverse = s ++ inputExtension := by
  have last : (s ++ inputExtension).reverse = 'm' :: ('u' :: 'n' :: 'e' :: '.' :: s.reverse) := by
    simp [inputExtension]
  have kept : dropTrailing (s ++ inputExtension).reverse = (s ++ inputExtension).reverse := by
    rw [last, dropTrailing] <;> simp
  rw [kept, List.reverse_reverse]

lemma Path.output_into (lead : Leading pre) (no : '/' ∉ stem) :
    (Path.into pre (stem ++ inputExtension)).output = .into pre (outputPiece stem) := by
  have no' : '/' ∉ stem ++ inputExtension := by
    rw [List.mem_append, not_or]
    exact ⟨no, by decide⟩
  have body := dropTrailing_input (pre ++ stem)
  rw [List.append_assoc] at body
  have named : ¬(stem ++ inputExtension = [] ∨ stem ++ inputExtension = ['.'] ∨
      stem ++ inputExtension = ['.', '.']) := by
    rintro (is | is | is) <;>
    · have length := congrArg List.length is
      simp [inputExtension] at length
  rw [output, into, String.toList_ofList, outputChars]
  dsimp only
  rw [body, splitAfterLast_append lead no']
  dsimp only
  rw [if_neg named, splitExtension?_input, outputPiece, outputStem]
  by_cases bare : stem = []
  · subst bare
    rw [if_pos rfl, if_neg (by decide), if_pos rfl, List.nil_append, List.append_assoc]
    rfl
  · rw [if_neg bare, if_neg bare]
    dsimp only
    by_cases dot : stem = ['.']
    · rw [if_pos dot, if_pos ⟨dot, by decide, rfl⟩]
      rfl
    · rw [if_neg dot, if_neg (fun is => dot is.1), List.append_assoc]
      rfl

lemma outputStem_ne_nil (stem : List Char) : outputStem stem ≠ [] := by
  rw [outputStem]
  split
  · decide
  · assumption

lemma length_outputStem_go (stem : List Char) : 3 < (outputStem stem ++ ".go".toList).length := by
  rw [List.length_append]
  exact Nat.lt_add_of_pos_left (List.length_pos_iff.mpr (outputStem_ne_nil stem))

lemma outputPiece_ne_input (a b : List Char) : outputPiece a ≠ b ++ inputExtension := by
  intro same
  have last := congrArg List.getLast? same
  have ends : (b ++ inputExtension).getLast? = some 'm' := by
    simp [inputExtension, List.getLast?_append]
  rw [ends, outputPiece] at last
  split at last
  · cases last
  · simp [List.getLast?_append] at last

lemma outputStem_inj {a b : List Char} (same : outputStem a = outputStem b) :
    a = b ∨ a = [] ∧ b = inputExtension ∨ a = inputExtension ∧ b = [] := by
  rw [outputStem, outputStem] at same
  by_cases a0 : a = [] <;> by_cases b0 : b = []
  · exact .inl (a0.trans b0.symm)
  · rw [if_pos a0, if_neg b0] at same
    exact .inr (.inl ⟨a0, same.symm⟩)
  · rw [if_neg a0, if_pos b0] at same
    exact .inr (.inr ⟨same, b0⟩)
  · rw [if_neg a0, if_neg b0] at same
    exact .inl same

/-- Different names have different outputs, but for the one that is all extension. -/
lemma outputPiece_inj {a b : List Char} (same : outputPiece a = outputPiece b) :
    a = b ∨ a = [] ∧ b = inputExtension ∨ a = inputExtension ∧ b = [] := by
  have noDots (stem : List Char) : outputStem stem ++ ".go".toList ≠ ['.', '.'] := by
    intro is
    have long := length_outputStem_go stem
    rw [is] at long
    exact absurd long (by decide)
  rw [outputPiece, outputPiece] at same
  by_cases a1 : a = ['.'] <;> by_cases b1 : b = ['.']
  · exact .inl (a1.trans b1.symm)
  · rw [if_pos a1, if_neg b1] at same
    exact absurd same.symm (noDots b)
  · rw [if_neg a1, if_pos b1] at same
    exact absurd same (noDots a)
  · rw [if_neg a1, if_neg b1] at same
    exact outputStem_inj (List.append_cancel_right same)

lemma isName_outputPiece (name : IsName (stem ++ inputExtension)) (noDot : stem ≠ ['.']) :
    IsName (outputPiece stem) := by
  obtain ⟨-, -, -, noSlash, noNull⟩ := name
  have free {c : Char} (no : c ∉ stem ++ inputExtension) (no' : c ∉ ".go".toList) :
      c ∉ outputStem stem ++ ".go".toList := by
    rw [List.mem_append, not_or] at no ⊢
    refine ⟨?_, no'⟩
    rw [outputStem]
    split
    · exact no.2
    · exact no.1
  have long {short : List Char} (is : outputStem stem ++ ".go".toList = short) :
      3 < short.length := by
    rw [← is]
    exact length_outputStem_go stem
  rw [outputPiece, if_neg noDot]
  refine ⟨?_, ?_, ?_, free noSlash (by decide), free noNull (by decide)⟩ <;>
  · intro is
    exact absurd (long is) (by decide)

/-! ## The places of outputs -/

namespace FileTree

variable {t : FileTree} {cwd d i i' o o' : Location} {stem' : List Char}

/-- There are no links in the directory of the entry that the path names. -/
def Unlinked (t : FileTree) (cwd : Location) (p : Path) : Prop :=
  ∀ n d e, t.resolve .entry cwd p = .ok ⟨n :: d, e⟩ →
    ∀ m target, t.get? (m :: d) ≠ some (.link target)

/-- The locations of an input and its output, for an input in the directory. -/
structure Placed (d : Location) (stem : List Char) (i o : Location) : Prop where
  source : ∃ n : Name, n.text.toList = stem ++ inputExtension ∧ i = n :: d
  target : stem = ['.'] ∧ o = d.tail ∨ ∃ n : Name, n.text.toList = outputPiece stem ∧ o = n :: d

lemma placed_of_location? (lead : Leading pre) (name : IsName (stem ++ inputExtension))
    (plain : t.Unlinked cwd (.into pre (stem ++ inputExtension)))
    (source : t.location? cwd (.into pre (stem ++ inputExtension)) = some i)
    (target : t.location? cwd (Path.into pre (stem ++ inputExtension)).output = some o) :
    ∃ k d, t.directory? cwd pre = some (k, d) ∧ Placed d stem i o := by
  have noSlash : '/' ∉ stem := by
    obtain ⟨-, -, -, no, -⟩ := name
    rw [List.mem_append, not_or] at no
    exact no.1
  rw [Path.output_into lead noSlash] at target
  obtain ⟨n, is⟩ := Name.exists_of_isName name
  rw [← is] at source plain
  obtain ⟨k, d, into, named, at_⟩ := location?_into_name lead source
  have unlinked := plain n d _ named
  refine ⟨k, d, into, ⟨n, is, at_ (unlinked n)⟩, ?_⟩
  by_cases dot : stem = ['.']
  · -- the output of `..enum` is `..`
    subst dot
    obtain ⟨k', d', into', up⟩ := location?_into_up lead target
    cases into.symm.trans into'
    exact .inl ⟨rfl, up⟩
  · obtain ⟨m, is'⟩ := Name.exists_of_isName (isName_outputPiece name dot)
    rw [← is'] at target
    obtain ⟨k', d', into', -, at_'⟩ := location?_into_name lead target
    cases into.symm.trans into'
    exact .inr ⟨m, is', at_' (unlinked m)⟩

lemma tail_ne_cons (d : Location) (n : Name) : d.tail ≠ n :: d := by
  intro is
  have length := congrArg List.length is
  rw [List.length_tail, List.length_cons] at length
  omega

/-- No output takes the place of an input. -/
lemma Placed.target_ne_source (p : Placed d stem i o) (p' : Placed d stem' i' o') : o ≠ i' := by
  rintro rfl
  obtain ⟨n, is, rfl⟩ := p'.source
  obtain ⟨-, up⟩ | ⟨m, is', at_⟩ := p.target
  · exact tail_ne_cons _ _ up.symm
  · cases at_
    exact outputPiece_ne_input _ _ (is'.symm.trans is)

/-- Outputs take the same place only if their names are the same. -/
lemma Placed.outputPiece_eq (p : Placed d stem i o) (p' : Placed d stem' i' o) :
    outputPiece stem = outputPiece stem' := by
  obtain ⟨rfl, up⟩ | ⟨m, is, at_⟩ := p.target <;> obtain ⟨rfl, up'⟩ | ⟨m', is', at_'⟩ := p'.target
  · rfl
  · exact absurd (up.symm.trans at_') (tail_ne_cons _ _)
  · exact absurd (up'.symm.trans at_) (tail_ne_cons _ _)
  · cases at_.symm.trans at_'
    exact is.symm.trans is'

end FileTree

end EnumGen
