import EnumGen.Files.Resolve
import Mathlib.Tactic.Lemma

/-!
# Where paths lead, and what that depends on

A path is followed through directories and links, the passages of a tree. `Leads` says step by step
where it comes to, and it is what `FileTree.walk` finds out (`walk_eq_ok_iff`). The locations that
are looked up on the way are the `trail` of the path. Trees with the same passages along the trail
lead to the same location (`Leads.alike`), and a path whose trail has lost an entry leads nowhere
(`Leads.walk_erase`).
-/

namespace EnumGen

/-- A walk can go on from the entry. -/
def Entry.IsPassage : Entry → Prop
  | .dir | .link _ => True
  | .file _ | .fullDevice => False

namespace FileTree

/-- Where a path starts that is met in a directory. -/
def start (p : Path) (dir : Location) : Location :=
  if p.isAbsolute then [] else dir

/-- The steps lead from a directory to a place, over at most the given number of links. -/
inductive Leads (t : FileTree) (purpose : Purpose) :
    Nat → Location → List PathStep → Place → Prop
  | done {links dir} : Leads t purpose links dir [] ⟨dir, t.get? dir⟩
  | here {links dir rest place} (on : Leads t purpose links dir rest place) :
    Leads t purpose links dir (.here :: rest) place
  | slash {links dir rest place} (on : Leads t purpose links dir rest place) :
    Leads t purpose links dir (.slash :: rest) place
  | up {links dir rest place} (on : Leads t purpose links dir.tail rest place) :
    Leads t purpose links dir (.up :: rest) place
  /-- a directory is entered -/
  | enter {links dir n rest place} (asked : ¬(purpose = .writing ∧ rest = [.slash]))
    (short : n.text.utf8ByteSize ≤ maxNameBytes) (found : t.get? (n :: dir) = some .dir)
    (on : Leads t purpose links (n :: dir) rest place) :
    Leads t purpose links dir (.name n :: rest) place
  /-- a link is replaced by its target -/
  | follow {links dir n rest place target} (asked : ¬(purpose = .writing ∧ rest = [.slash]))
    (short : n.text.utf8ByteSize ≤ maxNameBytes) (found : t.get? (n :: dir) = some (.link target))
    (through : ¬(rest = [] ∧ purpose = .entry))
    (on : Leads t purpose links (start target dir) (target.steps ++ rest) place) :
    Leads t purpose (links + 1) dir (.name n :: rest) place
  /-- the link itself is meant -/
  | link {links dir n target} (short : n.text.utf8ByteSize ≤ maxNameBytes)
    (found : t.get? (n :: dir) = some (.link target)) (meant : purpose = .entry) :
    Leads t purpose links dir [.name n] ⟨n :: dir, some (.link target)⟩
  /-- a file is there, or nothing yet -/
  | last {links dir n} (short : n.text.utf8ByteSize ≤ maxNameBytes)
    (ends : ∀ e, t.get? (n :: dir) = some e → ¬e.IsPassage) :
    Leads t purpose links dir [.name n] ⟨n :: dir, t.get? (n :: dir)⟩

variable {t t' : FileTree} {purpose : Purpose} {links : Nat} {dir l : Location}
  {steps rest : List PathStep} {place : Place} {n : Name} {target : Path}

/-- A name with nothing behind it does not ask for a directory. -/
lemma not_asked_nil : ¬(purpose = .writing ∧ ([] : List PathStep) = [.slash]) :=
  fun asked => List.cons_ne_nil _ _ asked.2.symm

lemma walk_dir (asked : ¬(purpose = .writing ∧ rest = [.slash]))
    (short : n.text.utf8ByteSize ≤ maxNameBytes) (found : t.get? (n :: dir) = some .dir) :
    t.walk purpose links dir (.name n :: rest) = t.walk purpose links (n :: dir) rest := by
  rw [walk, if_neg asked, if_neg (Nat.not_lt.mpr short), found]

lemma walk_link (asked : ¬(purpose = .writing ∧ rest = [.slash]))
    (short : n.text.utf8ByteSize ≤ maxNameBytes) (found : t.get? (n :: dir) = some (.link target))
    (through : ¬(rest = [] ∧ purpose = .entry)) :
    t.walk purpose (links + 1) dir (.name n :: rest) =
      t.walk purpose links (start target dir) (target.steps ++ rest) := by
  rw [walk, if_neg asked, if_neg (Nat.not_lt.mpr short), found]
  exact if_neg through

lemma leads_of_walk (w : t.walk purpose links dir steps = .ok place) :
    Leads t purpose links dir steps place := by
  fun_induction walk t purpose links dir steps with
  | case1 => cases w; exact .done
  | case2 _ _ _ ih => exact .here (ih w)
  | case3 _ _ _ ih => exact .slash (ih w)
  | case4 _ _ _ ih => exact .up (ih w)
  | case5 | case6 | case8 | case11 | case14 => cases w
  | case7 _ _ _ long found _ =>
    -- nothing is there, which only the last step may find
    cases w
    rw [← found]
    exact .last (Nat.not_lt.mp long) (by simp [found])
  | case9 _ _ _ _ asked long found ih => exact .enter asked (Nat.not_lt.mp long) found (ih w)
  | case10 _ _ _ _ _ long _ found meant =>
    cases w
    obtain ⟨rfl, meant⟩ := meant
    exact .link (Nat.not_lt.mp long) found meant
  | case12 _ _ _ asked long _ found through _ ih =>
    exact .follow asked (Nat.not_lt.mp long) found through (ih w)
  | case13 _ _ _ long e dir link found _ =>
    cases w
    rw [← found]
    refine .last (Nat.not_lt.mp long) ?_
    intro e' found'
    rw [found, Option.some_inj] at found'
    subst found'
    cases e with
    | dir => exact absurd rfl dir
    | link target => exact absurd rfl (link target)
    | file | fullDevice => exact id

lemma Leads.walk (w : Leads t purpose links dir steps place) :
    t.walk purpose links dir steps = .ok place := by
  induction w with
  | done => rw [FileTree.walk]
  | here _ ih | slash _ ih | up _ ih => rw [FileTree.walk, ih]
  | enter asked short found _ ih => rw [walk_dir asked short found, ih]
  | follow asked short found through _ ih => rw [walk_link asked short found through, ih]
  | link short found meant =>
    rw [FileTree.walk, if_neg (by simp), if_neg (Nat.not_lt.mpr short), found]
    exact if_pos ⟨rfl, meant⟩
  | @last _ dir n short ends =>
    rw [FileTree.walk, if_neg (by simp), if_neg (Nat.not_lt.mpr short)]
    cases found : t.get? (n :: dir) with
    | none => rfl
    | some e =>
      cases e with
      | dir | link => exact absurd trivial (ends _ found)
      | file | fullDevice => rfl

/-- `Leads` is what following a path finds out. -/
lemma walk_eq_ok_iff :
    t.walk purpose links dir steps = .ok place ↔ Leads t purpose links dir steps place :=
  ⟨leads_of_walk, Leads.walk⟩

/-- What is reached is what stands at the location. -/
lemma Leads.entry (w : Leads t purpose links dir steps place) :
    place.entry = t.get? place.location := by
  induction w with
  | done | last => rfl
  | here _ ih | slash _ ih | up _ ih | enter _ _ _ _ ih | follow _ _ _ _ _ ih => exact ih
  | link _ found => exact found.symm

/-- What can be written to is there to be read, or will be. -/
lemma Leads.readable (w : Leads t .writing links dir steps place) :
    Leads t .target links dir steps place := by
  induction w with
  | done => exact .done
  | here _ ih => exact .here ih
  | slash _ ih => exact .slash ih
  | up _ ih => exact .up ih
  | enter _ short found _ ih => exact .enter nofun short found ih
  | follow _ short found _ _ ih => exact .follow nofun short found nofun ih
  | link _ _ meant => cases meant
  | last short ends => exact .last short ends

/-! ## The trail of a walk -/

/-- The locations that are looked up when steps are followed to the end, and that of the end. -/
def trail (t : FileTree) (links : Nat) (dir : Location) (steps : List PathStep) : List Location :=
  match steps with
  | [] => [dir]
  | .here :: rest | .slash :: rest => trail t links dir rest
  | .up :: rest => trail t links dir.tail rest
  | .name n :: rest =>
    (n :: dir) ::
      match t.get? (n :: dir) with
      | some .dir => trail t links (n :: dir) rest
      | some (.link target) =>
        match links with
        | 0 => []
        | links + 1 => trail t links (start target dir) (target.steps ++ rest)
      | _ => []
termination_by (links, steps.length)

/-- The trees have the same passages at the location. -/
def AlikeAt (t t' : FileTree) (l : Location) : Prop :=
  ∀ e : Entry, e.IsPassage → (t.get? l = some e ↔ t'.get? l = some e)

/-- With the same passages along the trail, the walk comes to the same location. -/
lemma Leads.alike (w : Leads t purpose links dir steps place)
    (same : ∀ l ∈ t.trail links dir steps, AlikeAt t t' l) :
    Leads t' purpose links dir steps ⟨place.location, t'.get? place.location⟩ := by
  induction w with
  | done => exact .done
  | here _ ih | slash _ ih | up _ ih =>
    rw [trail] at same
    constructor
    exact ih same
  | enter asked short found _ ih =>
    rw [trail, found, List.forall_mem_cons] at same
    exact .enter asked short ((same.1 .dir trivial).mp found) (ih same.2)
  | follow asked short found through _ ih =>
    rw [trail, found, List.forall_mem_cons] at same
    exact .follow asked short ((same.1 (.link _) trivial).mp found) through (ih same.2)
  | link short found meant =>
    rw [trail, List.forall_mem_cons] at same
    have found' := (same.1 (.link _) trivial).mp found
    rw [found']
    exact .link short found' meant
  | last short ends =>
    rw [trail, List.forall_mem_cons] at same
    exact .last short fun e found' passage => ends e ((same.1 e passage).mpr found') passage

lemma Leads.mem_trail (w : Leads t purpose links dir steps place) :
    place.location ∈ t.trail links dir steps := by
  induction w with
  | done =>
    rw [trail]
    exact List.mem_singleton_self _
  | here _ ih | slash _ ih | up _ ih =>
    rw [trail]
    exact ih
  | enter _ _ found _ ih | follow _ _ found _ _ ih =>
    rw [trail, found]
    exact List.mem_cons_of_mem _ ih
  | link | last =>
    rw [trail]
    exact List.mem_cons_self

lemma walk_erase_name (short : n.text.utf8ByteSize ≤ maxNameBytes) :
    (t.erase (n :: dir)).walk .target links dir (.name n :: rest) = .error .notFound ∨
      (t.erase (n :: dir)).walk .target links dir (.name n :: rest) = .ok ⟨n :: dir, none⟩ := by
  have missing : (t.erase (n :: dir)).get? (n :: dir) = none := by
    rw [get?_erase, if_neg (List.cons_ne_nil _ _), if_pos rfl]
  rw [walk, if_neg (by simp), if_neg (Nat.not_lt.mpr short), missing]
  by_cases last : rest = []
  · exact .inr (if_pos last)
  · exact .inl (if_neg last)

/-- Without one of the entries on its trail, a walk comes to nothing. -/
lemma Leads.walk_erase (w : Leads t .target links dir steps place) (ne : l ≠ [])
    (on : l ∈ t.trail links dir steps) :
    (t.erase l).walk .target links dir steps = .error .notFound ∨
      (t.erase l).walk .target links dir steps = .ok ⟨l, none⟩ := by
  have kept {n : Name} {dir : Location} (other : ¬l = n :: dir) :
      (t.erase l).get? (n :: dir) = t.get? (n :: dir) := by
    rw [get?_erase, if_neg (List.cons_ne_nil _ _), if_neg (Ne.symm other)]
  induction w with
  | done =>
    rw [trail, List.mem_singleton] at on
    subst on
    rw [FileTree.walk, get?_erase, if_neg ne, if_pos rfl]
    exact .inr rfl
  | here _ ih | slash _ ih | up _ ih =>
    rw [trail] at on
    rw [FileTree.walk]
    exact ih on
  | @enter _ dir n _ _ asked short found _ ih =>
    by_cases is : l = n :: dir
    · subst is
      exact walk_erase_name short
    · rw [trail, found, List.mem_cons] at on
      rw [walk_dir asked short ((kept is).trans found)]
      exact ih (on.resolve_left is)
  | @follow _ dir n _ _ _ asked short found through _ ih =>
    -- the link itself is gone, or it is still there and the walk is cut off behind it
    by_cases is : l = n :: dir
    · subst is
      exact walk_erase_name short
    · rw [trail, found, List.mem_cons] at on
      rw [walk_link asked short ((kept is).trans found) through]
      exact ih (on.resolve_left is)
  | link _ _ meant => cases meant
  | @last _ dir n short ends =>
    have is : l = n :: dir := by
      rw [trail, List.mem_cons] at on
      refine on.resolve_right ?_
      cases found : t.get? (n :: dir) with
      | none => exact List.not_mem_nil
      | some e =>
        cases e with
        | dir | link => exact absurd trivial (ends _ found)
        | file | fullDevice => exact List.not_mem_nil
    subst is
    exact walk_erase_name short

end FileTree

end EnumGen
