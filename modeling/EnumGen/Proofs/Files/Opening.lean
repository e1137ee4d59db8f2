import EnumGen.Proofs.Files.Siblings
import Mathlib.Data.List.Infix
import Mathlib.Data.List.TakeWhile

/-!
# Which files can be opened

A file is opened to be written before anything is put into it. If that fails, the path does not name
a file or a device itself: what it names is nothing, a directory or a link (`passage_of_openError?`).
The exception would be a path that asks for a directory with a slash behind its last name, and no
output path does (`Path.not_asksForDirectory_output`).
-/

namespace EnumGen

/-- The last step comes from a slash behind a name. -/
def AsksForDirectory (steps : List PathStep) : Prop :=
  ∃ n, [.name n, .slash] <:+ steps

lemma AsksForDirectory.append {steps : List PathStep} (asks : AsksForDirectory steps)
    (before : List PathStep) : AsksForDirectory (before ++ steps) := by
  obtain ⟨n, last⟩ := asks
  exact ⟨n, last.trans (List.suffix_append before steps)⟩

/-- Whether steps end so is settled by the last two of them. -/
lemma AsksForDirectory.of_append {before rest : List PathStep}
    (asks : AsksForDirectory (before ++ rest)) (some_ : rest ≠ []) (more : rest ≠ [.slash]) :
    AsksForDirectory rest := by
  obtain ⟨n, last⟩ := asks
  cases rest with
  | nil => exact absurd rfl some_
  | cons s rest =>
    cases rest with
    | nil =>
      obtain ⟨_, same⟩ := last
      have ends := congrArg List.getLast? same
      simp at ends
      exact absurd (by rw [ends]) more
    | cons s' rest =>
      exact ⟨n, List.suffix_of_suffix_length_le last (List.suffix_append _ _) (by simp)⟩

namespace FileTree

variable {t : FileTree} {links : Nat} {cwd dir l : Location} {steps : List PathStep} {place : Place}
  {p : Path} {e : FileError}

/-! ## Opening a file -/

/-- Why a file cannot be opened to be written, if it cannot. -/
def openError? (t : FileTree) (cwd : Location) (p : Path) : Option FileError :=
  match t.resolve .writing cwd p with
  | .error e => some e
  | .ok ⟨_, some .dir⟩ => some .isDirectory
  | .ok ⟨_, some (.link _)⟩ => some .tooManyLinks
  | .ok _ => none

/-- What cannot be opened is not written, whatever there is to write. -/
lemma write_of_openError? (unopened : t.openError? cwd p = some e) (content : ByteArray) :
    t.write cwd p content = (.error e, t) := by
  rw [openError?] at unopened
  rw [write]
  cases r : t.resolve .writing cwd p with
  | error e' =>
    rw [r] at unopened
    cases unopened
    rfl
  | ok place =>
    obtain ⟨l, entry⟩ := place
    rw [r] at unopened
    cases entry with
    | none => cases unopened
    | some x => cases x <;> cases unopened <;> rfl

/-- What is named at the end of the steps, and is no passage, is also met in order to write it. -/
lemma Leads.writing (w : Leads t .entry links dir steps place) (asked : ¬AsksForDirectory steps)
    (ends : ∀ e, place.entry = some e → ¬e.IsPassage) : Leads t .writing links dir steps place := by
  have before {first : PathStep} {rest : List PathStep} (asked : ¬AsksForDirectory (first :: rest)) :
      ¬AsksForDirectory rest := fun asks => asked (asks.append [first])
  have notAlone {n : Name} {rest : List PathStep} (asked : ¬AsksForDirectory (.name n :: rest)) :
      rest ≠ [.slash] := by
    rintro rfl
    exact asked ⟨n, List.suffix_rfl⟩
  induction w with
  | done => exact .done
  | here _ ih => exact .here (ih (before asked) ends)
  | slash _ ih => exact .slash (ih (before asked) ends)
  | up _ ih => exact .up (ih (before asked) ends)
  | enter _ short found _ ih =>
    exact .enter (fun is => notAlone asked is.2) short found (ih (before asked) ends)
  | follow _ short found through _ ih =>
    refine .follow (fun is => notAlone asked is.2) short found nofun (ih ?_ ends)
    intro asks
    exact before asked (asks.of_append (fun none => through ⟨none, rfl⟩) (notAlone asked))
  | link => exact absurd trivial (ends _ rfl)
  | last short ends => exact .last short ends

/-- What a path names that cannot be opened is a directory or a link. -/
lemma passage_of_openError? {x : Entry} (unopened : t.openError? cwd p = some e)
    (asked : ¬AsksForDirectory p.steps) (names : t.resolve .entry cwd p = .ok ⟨l, some x⟩) :
    x.IsPassage := by
  by_contra ends
  rw [resolve_eq_ok_iff] at names
  have w := names.2.writing asked fun _ is => by
    cases is
    exact ends
  rw [openError?, resolve_eq_ok_iff.mpr ⟨names.1, w⟩] at unopened
  cases x with
  | dir | link => exact ends trivial
  | file | fullDevice => cases unopened

end FileTree

/-! ## The steps to an output -/

lemma slash_not_mem_stepsOf (pre : List Char) : .slash ∉ stepsOf pre := by
  intro mem
  obtain ⟨s, -, is⟩ := List.mem_filterMap.mp mem
  exact PathStep.ofPiece?_ne_slash is rfl

namespace Path

/-- What is dropped at the end of a path are steps that stay where they are. -/
lemma stepsOf_dropTrailing (s : List Char) :
    ∃ k, stepsOf s.reverse = stepsOf (dropTrailing s).reverse ++ List.replicate k .here := by
  fun_induction dropTrailing s with
  | case1 s ih =>
    obtain ⟨k, is⟩ := ih
    refine ⟨k, ?_⟩
    rw [List.reverse_cons, stepsOf_append, is]
    simp [stepsOf, splitSlashes, PathStep.ofPiece?]
  | case2 s ih =>
    obtain ⟨k, is⟩ := ih
    refine ⟨k + 1, ?_⟩
    rw [List.reverse_cons, List.reverse_cons, List.append_assoc, List.singleton_append,
      stepsOf_append, is, List.replicate_succ']
    simp [stepsOf, splitSlashes, PathStep.ofPiece?]
  | case3 => exact ⟨0, by simp⟩

lemma head?_dropTrailing (s : List Char) : (dropTrailing s).head? ≠ some '/' := by
  fun_induction dropTrailing s with
  | case1 _ ih | case2 _ ih => exact ih
  | case3 s no _ =>
    intro starts
    obtain ⟨r, rfl⟩ := List.head?_eq_some_iff.mp starts
    exact no r rfl

lemma splitAfterLast_spec {c : Char} {s before after : List Char}
    (split : splitAfterLast c s = (before, after)) :
    s = before ++ after ∧ (before = [] ∨ before.getLast? = some c) ∧ c ∉ after := by
  cases split
  refine ⟨?_, ?_, ?_⟩
  · rw [← List.reverse_append, List.takeWhile_append_dropWhile, List.reverse_reverse]
  · rw [List.getLast?_reverse, List.reverse_eq_nil_iff]
    cases rest : s.reverse.dropWhile (· != c) with
    | nil => exact .inl rfl
    | cons d r =>
      have stops := List.head?_dropWhile_not (· != c) s.reverse
      rw [rest] at stops
      right
      simpa using stops
  · intro mem
    have passes := List.mem_takeWhile_imp (List.mem_reverse.mp mem)
    simp at passes

/-- A path without a name to replace does not end with a name at all. -/
lemma getLast?_stepsOf {s dir name : List Char}
    (split : splitAfterLast '/' (dropTrailing s.reverse).reverse = (dir, name))
    (special : name = [] ∨ name = ['.'] ∨ name = ['.', '.']) (n : Name) :
    (stepsOf s).getLast? ≠ some (.name n) := by
  obtain ⟨k, steps⟩ := stepsOf_dropTrailing s.reverse
  obtain ⟨body, lead, no⟩ := splitAfterLast_spec split
  rw [List.reverse_reverse, body, stepsOf_into lead no] at steps
  rw [steps]
  cases k with
  | succ k => simp [List.replicate_succ']
  | zero =>
    obtain rfl | rfl | rfl := special
    · -- what is left has no slash at its end, so there is nothing left
      obtain rfl | ends := lead
      · simp [stepsOf, splitSlashes, PathStep.ofPiece?]
      · rw [List.append_nil] at body
        rw [← body, List.getLast?_reverse] at ends
        exact absurd ends (head?_dropTrailing _)
    · simp [PathStep.ofPiece?]
    · simp [PathStep.ofPiece?]

/-- The characters of a stem are those of its name. -/
lemma mem_of_splitExtension? {c : Char} {name stem extension : List Char}
    (split : splitExtension? name = some (stem, extension)) (mem : c ∈ stem) : c ∈ name := by
  rw [splitExtension?] at split
  split at split
  · cases split
  · cases split
  · rename_i is
    cases split
    rw [(splitAfterLast_spec is).1]
    exact List.mem_append_left _ (List.mem_of_mem_dropLast mem)

/-- An output path is the path itself, which then ends with no name, or it ends with a piece. -/
lemma output_cases (p : Path) :
    (p.output = p ∧ ∀ n, (stepsOf p.text.toList).getLast? ≠ some (.name n)) ∨
      ∃ dir piece, p.output = .into dir piece ∧ Leading dir ∧ IsPiece piece := by
  cases split : splitAfterLast '/' (dropTrailing p.text.toList.reverse).reverse with
  | mk dir name =>
    obtain ⟨-, lead, no⟩ := splitAfterLast_spec split
    rw [output, outputChars]
    dsimp only
    rw [split]
    dsimp only
    by_cases special : name = [] ∨ name = ['.'] ∨ name = ['.', '.']
    · rw [if_pos special, String.ofList_toList]
      exact .inl ⟨rfl, getLast?_stepsOf split special⟩
    · rw [if_neg special]
      have piece {stem : List Char} (no : '/' ∉ stem) : IsPiece (stem ++ ".go".toList) := by
        refine ⟨List.append_ne_nil_of_right_ne_nil _ (by decide), ?_⟩
        rw [List.mem_append, not_or]
        exact ⟨no, by decide⟩
      right
      cases extension : splitExtension? name with
      | none => exact ⟨dir, _, by rw [into, List.append_assoc], lead, piece no⟩
      | some parts =>
        obtain ⟨stem, extension⟩ := parts
        have no' : '/' ∉ stem := fun mem => no (mem_of_splitExtension? (by assumption) mem)
        dsimp only
        split
        · exact ⟨dir, ['.', '.'], rfl, lead, by decide⟩
        · exact ⟨dir, _, by rw [into, List.append_assoc], lead, piece no'⟩

/-- No output path has a slash behind its last name. -/
lemma not_asksForDirectory_output (p : Path) : ¬AsksForDirectory p.output.steps := by
  rintro ⟨n, last⟩
  have noSlash {pre : List Char} (last : [.name n, .slash] <:+ stepsOf pre) : False :=
    slash_not_mem_stepsOf pre (last.subset (List.mem_cons_of_mem _ (List.mem_singleton_self _)))
  obtain ⟨same, unnamed⟩ | ⟨dir, piece, is, lead, isPiece⟩ := p.output_cases
  · rw [same, steps, ← stepsOf] at last
    split at last
    · obtain ⟨before, e⟩ := last
      have cut : (before ++ [.name n]) ++ [.slash] = stepsOf p.text.toList ++ [.slash] := by
        simpa using e
      apply unnamed n
      rw [← List.append_cancel_right cut, List.getLast?_concat]
    · rw [List.append_nil] at last
      exact noSlash last
  · rw [is, steps_into lead isPiece, ← stepsOf_into lead isPiece.2] at last
    exact noSlash last

end Path

end EnumGen
