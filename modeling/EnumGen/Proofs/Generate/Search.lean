import EnumGen.Inputs
import EnumGen.Proofs.Files.Approach
import EnumGen.Proofs.Generate.Run
import Mathlib.Data.List.Nodup

/-!
# Looking for inputs

What is found in a directory is a function of the tree (`run_search_eq`, `run_discover_eq`): neither
the clock nor the log has a part in it. It is the names of inputs in one directory, and it is the same
in every tree that has grown by outputs there (`discover_grown`). Everything that was there on the way
to the directory is still there, and the new names in it are not those of inputs.
-/

namespace EnumGen

/-- What stands in front of a name in the spelling of an entry. -/
def Path.before (p : Path) : List Char :=
  if p = .here ∨ p.text.isEmpty then []
  else if p.endsInSlash then p.text.toList
  else p.text.toList ++ ['/']

lemma Path.leading_before (p : Path) : Leading p.before := by
  rw [before]
  split
  · exact .inl rfl
  · split
    · rename_i ends
      exact .inr (of_decide_eq_true ends)
    · exact .inr List.getLast?_concat

lemma Path.entry_eq (p : Path) {piece : String} (slashless : '/' ∉ piece.toList) :
    p.entry piece = .into p.before piece.toList := by
  have relative : ¬(Path.mk piece).isAbsolute := by
    rw [isAbsolute, decide_eq_true_eq]
    intro starts
    exact slashless (List.mem_of_mem_head? starts)
  rw [entry, into, before, join]
  by_cases here : p = .here
  · rw [if_pos here, if_pos (.inl here)]
    simp
  · rw [if_neg here, if_neg relative]
    by_cases empty : p.text.isEmpty
    · have none : p.text = "" := String.isEmpty_iff.mp empty
      simp [none]
    · by_cases ends : p.endsInSlash
      · simp [here, empty, ends]
      · simp [here, empty, ends, String.append_assoc]

lemma Path.entry_eq_into (p : Path) {n : String} (name : IsName n.toList) :
    p.entry n = .into p.before n.toList :=
  p.entry_eq name.2.2.2.1

namespace FileTree

/-! ## The search as a function of the tree -/

/-- Whether a place on the way is a directory. -/
def isWay (t : FileTree) (cwd : Location) (w : Waypoint) : Bool :=
  w.seen || t.isDir cwd w.path

/-- The listing of a place on the way, if it is a directory. -/
def entries? (t : FileTree) (cwd : Location) (w : Waypoint) :
    Except Failure (Option (List Listed)) :=
  if t.isWay cwd w then
    match t.list cwd w.path with
    | .error e => .error (.io w.path e)
    | .ok entries => .ok (some entries)
  else .ok none

/-- The next place on the way, if it can be there. -/
def next? (t : FileTree) (cwd : Location) (w : Waypoint) (piece : String) :
    Except Failure (Option Waypoint) :=
  let next := w.path.entry piece
  if piece.toList.any isPatternChar then
    match t.entries? cwd w with
    | .error e => .error e
    | .ok entries =>
      .ok (((entries.getD []).find? fun e => e.name = piece).map fun e => ⟨next, e.isDir⟩)
  else if piece = "." ∨ piece = ".." then
    .ok (if t.isWay cwd w then some ⟨next, false⟩ else none)
  else
    .ok (if t.exists? cwd next then some ⟨next, false⟩ else none)

/-- The inputs in the directory that is reached along the pieces. -/
def search (t : FileTree) (cwd : Location) (w : Waypoint) : List String → Except Failure (List Path)
  | piece :: pieces =>
    match t.next? cwd w piece with
    | .error e => .error e
    | .ok none => .ok []
    | .ok (some next) => t.search cwd next pieces
  | [] =>
    match t.entries? cwd w with
    | .error e => .error e
    | .ok entries =>
      .ok (((((entries.getD []).map Listed.name).filter isInputName).mergeSort
        fun a b => decide (a ≤ b)).map w.path.entry)

/-- The inputs in a directory, of which there has to be one. -/
def discover (t : FileTree) (cwd : Location) (dir : Path) : Except Failure (List Path) :=
  match t.search cwd ⟨if dir.isAbsolute then ⟨"/"⟩ else .here, false⟩ dir.pieces with
  | .error e => .error e
  | .ok found => if found.isEmpty then .error .noInputs else .ok found

end FileTree

namespace Machine

variable {h : Machine}

lemma run_isDir_eq (h : Machine) (w : Waypoint) :
    (w.isDir : StateM Machine Bool).run h = (h.tree.isWay h.cwd w, h) := by
  rw [Waypoint.isDir, FileTree.isWay]
  cases w.seen <;> rfl

lemma run_list?_eq (h : Machine) (w : Waypoint) :
    h.run w.list? = (h.tree.entries? h.cwd w, h) := by
  rw [Waypoint.list?, run_lift_bind, run_isDir_eq, FileTree.entries?]
  dsimp only
  cases h.tree.isWay h.cwd w with
  | false => rfl
  | true =>
    rw [if_pos rfl, if_pos rfl, run_lift_bind, run_list]
    dsimp only
    cases h.tree.list h.cwd w.path <;> rfl

lemma run_next?_eq (h : Machine) (w : Waypoint) (piece : String) :
    h.run (w.next? piece) = (h.tree.next? h.cwd w piece, h) := by
  rw [Waypoint.next?, FileTree.next?]
  dsimp only
  split
  · rw [run_bind, run_list?_eq]
    cases h.tree.entries? h.cwd w <;> rfl
  · split
    · rw [run_lift_bind, run_isDir_eq]
      rfl
    · rfl

/-- Looking for inputs changes nothing, and the tree alone settles what is found. -/
lemma run_search_eq (h : Machine) (w : Waypoint) (pieces : List String) :
    h.run (search w pieces) = (h.tree.search h.cwd w pieces, h) := by
  induction pieces generalizing w with
  | nil =>
    rw [search, run_bind, run_list?_eq, FileTree.search]
    cases h.tree.entries? h.cwd w <;> rfl
  | cons piece pieces ih =>
    rw [search, run_bind, run_next?_eq, FileTree.search]
    cases h.tree.next? h.cwd w piece with
    | error e => rfl
    | ok next =>
      cases next with
      | none => rfl
      | some next => exact ih next

lemma run_discover_eq (h : Machine) (dir : Path) :
    ∃ log, h.run (discover [] dir) = (h.tree.discover h.cwd dir, { h with log }) := by
  rw [discover, if_neg (by decide), run_bind, run_search_eq, FileTree.discover]
  dsimp only
  cases h.tree.search h.cwd _ dir.pieces with
  | error e => exact ⟨_, rfl⟩
  | ok found =>
    dsimp only
    rw [run_lift_bind, run_log]
    cases found.isEmpty <;> exact ⟨_, rfl⟩

end Machine

/-! ## Trees that have grown -/

lemma isInputName_iff {name : String} : isInputName name ↔ inputExtension <:+ name.toList :=
  List.isSuffixOf_iff_suffix

namespace FileTree

variable {t t' : FileTree} {purpose : Purpose} {cwd d l : Location} {place : Place} {p : Path}
  {w : Waypoint} {inputs : List Path}

lemma resolve_alike (a : Alike t t') (r : t.resolve purpose cwd p = .ok place) :
    t'.resolve purpose cwd p = .ok ⟨place.location, t'.get? place.location⟩ := by
  rw [resolve_eq_ok_iff] at r ⊢
  exact ⟨r.1, r.2.alike fun l _ => a l⟩

/-- A directory is still there. -/
lemma resolve_dir_alike (a : Alike t t') (r : t.resolve .target cwd p = .ok ⟨l, some .dir⟩) :
    t'.resolve .target cwd p = .ok ⟨l, some .dir⟩ := by
  have found : some Entry.dir = t.get? l := (resolve_eq_ok_iff.mp r).2.entry
  rw [resolve_alike a r]
  dsimp only
  rw [(a l .dir trivial).mp found.symm]

lemma isDir_iff : t.isDir cwd p ↔ ∃ l, t.resolve .target cwd p = .ok ⟨l, some .dir⟩ := by
  rw [isDir]
  cases t.resolve .target cwd p with
  | error e => simp
  | ok place =>
    obtain ⟨l, e⟩ := place
    cases e with
    | none => simp
    | some e => cases e <;> simp

lemma isWay_alike (a : Alike t t') (way : t.isWay cwd w) : t'.isWay cwd w := by
  rw [isWay, Bool.or_eq_true, isDir_iff] at way ⊢
  obtain seen | ⟨l, r⟩ := way
  · exact .inl seen
  · exact .inr ⟨l, resolve_dir_alike a r⟩

/-- Something is still there. -/
lemma Grown.exists? (g : Grown d t t') (there : t.exists? cwd p) : t'.exists? cwd p := by
  have stays {purpose : Purpose} {l e} (r : t.resolve purpose cwd p = .ok ⟨l, some e⟩) :
      ∃ e, t'.resolve purpose cwd p = .ok ⟨l, some e⟩ := by
    have found : some e = t.get? l := (resolve_eq_ok_iff.mp r).2.entry
    rw [resolve_alike g.alike r]
    obtain same | ⟨_, content, -, -, -, file⟩ := g l
    · exact ⟨e, by rw [same, found]⟩
    · exact ⟨.file content, by rw [file]⟩
  rw [FileTree.exists?] at there
  split at there
  · rename_i r
    obtain ⟨e, r'⟩ := stays r
    rw [FileTree.exists?, r']
  · rename_i r _
    obtain ⟨e, r'⟩ := stays r
    rw [FileTree.exists?, r']
    split
    · rfl
    · rfl
    · rename_i no
      exact absurd rfl (no _ _)
  · cases there

/-- The listing of the directory at a location. -/
def listing (t : FileTree) (l : Location) : List Listed :=
  (t.children l).map fun n => ⟨n.text, t.get? (n :: l) = some .dir⟩

lemma list_eq_ok_iff {entries : List Listed} : t.list cwd p = .ok entries ↔
    ∃ l, t.resolve .target cwd p = .ok ⟨l, some .dir⟩ ∧ entries = t.listing l := by
  rw [list]
  cases t.resolve .target cwd p with
  | error e => simp
  | ok place =>
    obtain ⟨l, e⟩ := place
    cases e with
    | none => simp
    | some e => cases e <;> simp [listing, eq_comm]

lemma names_listing (t : FileTree) (l : Location) :
    (t.listing l).map Listed.name = (t.children l).map Name.text := by
  rw [listing, List.map_map]
  rfl

/-- An entry is listed as what it is. -/
lemma find?_listing {n : Name} (there : (t.get? (n :: d)).isSome) :
    (t.listing d).find? (fun e => e.name = n.text) = some ⟨n.text, t.get? (n :: d) = some .dir⟩ := by
  have listed : (⟨n.text, t.get? (n :: d) = some .dir⟩ : Listed) ∈ t.listing d :=
    List.mem_map_of_mem (mem_children.mpr there)
  cases found : (t.listing d).find? fun e => e.name = n.text with
  | none =>
    have no := List.find?_eq_none.mp found _ listed
    simp at no
  | some e =>
    have is : e.name = n.text := by simpa using List.find?_some found
    obtain ⟨n', -, rfl⟩ := List.mem_map.mp (List.mem_of_find?_eq_some found)
    obtain rfl : n' = n := by
      cases n
      cases n'
      cases is
      rfl
    rfl

/-- An entry that is listed by its name is listed by it still. -/
lemma Grown.find?_listing (g : Grown d t t') {piece : String} {e : Listed}
    (found : (t.listing l).find? (fun e => e.name = piece) = some e) :
    (t'.listing l).find? (fun e => e.name = piece) = some e := by
  obtain rfl : e.name = piece := by simpa using List.find?_some found
  obtain ⟨n, at_, rfl⟩ := List.mem_map.mp (List.mem_of_find?_eq_some found)
  have there : (t'.get? (n :: l)).isSome := by
    rw [mem_children] at at_
    obtain same | ⟨_, _, -, -, -, file⟩ := g (n :: l)
    · rwa [same]
    · rw [file]
      rfl
  have same : decide (t'.get? (n :: l) = some .dir) = decide (t.get? (n :: l) = some .dir) :=
    decide_eq_decide.mpr (g.alike (n :: l) .dir trivial).symm
  rw [FileTree.find?_listing there, same]

/-- The names of the inputs in a directory. -/
def inputsAt (t : FileTree) (l : Location) : List String :=
  (((t.children l).map Name.text).filter isInputName).mergeSort fun a b => decide (a ≤ b)

lemma mem_inputsAt {name : String} : name ∈ t.inputsAt l ↔
    ∃ n : Name, name = n.text ∧ isInputName name ∧ (t.get? (n :: l)).isSome := by
  rw [inputsAt, List.mem_mergeSort, List.mem_filter, List.mem_map]
  constructor
  · rintro ⟨⟨n, at_, rfl⟩, input⟩
    exact ⟨n, rfl, input, mem_children.mp at_⟩
  · rintro ⟨n, rfl, input, there⟩
    exact ⟨⟨n, mem_children.mpr there, rfl⟩, input⟩

lemma nodup_inputsAt (t : FileTree) (l : Location) : (t.inputsAt l).Nodup := by
  rw [inputsAt, (List.mergeSort_perm _ _).nodup_iff]
  apply List.Nodup.filter
  apply (t.nodup_children l).map
  rintro ⟨n, _⟩ ⟨m, _⟩ same
  cases same
  rfl

lemma pairwise_inputsAt (t : FileTree) (l : Location) : (t.inputsAt l).Pairwise (· ≤ ·) := by
  have trans : ∀ a b c : String, decide (a ≤ b) → decide (b ≤ c) → decide (a ≤ c) := by
    simpa using fun _ _ _ => String.le_trans
  have total : ∀ a b : String, decide (a ≤ b) || decide (b ≤ a) := by
    simpa using String.le_total
  rw [inputsAt]
  simpa using List.pairwise_mergeSort trans total (((t.children l).map Name.text).filter isInputName)

/-- The new names are not those of inputs. The order of the listing may have changed, but the names
are sorted. -/
lemma Grown.inputsAt (g : Grown d t t') (l : Location) : t'.inputsAt l = t.inputsAt l := by
  have same {n : Name} (input : isInputName n.text) : t'.get? (n :: l) = t.get? (n :: l) :=
    g.get?_input (isInputName_iff.mp input) l
  refine List.Perm.eq_of_pairwise (fun _ _ _ _ => String.le_antisymm) (pairwise_inputsAt t' l)
    (pairwise_inputsAt t l) ?_
  rw [List.perm_ext_iff_of_nodup (nodup_inputsAt t' l) (nodup_inputsAt t l)]
  intro name
  rw [mem_inputsAt, mem_inputsAt]
  constructor
  · rintro ⟨n, rfl, input, there⟩
    exact ⟨n, rfl, input, same input ▸ there⟩
  · rintro ⟨n, rfl, input, there⟩
    exact ⟨n, rfl, input, (same input).symm ▸ there⟩

/-- A listing that has been read is read again, with what has come to it. -/
lemma entries?_grown (g : Grown d t t') {entries : List Listed}
    (read : t.entries? cwd w = .ok (some entries)) :
    ∃ l, t.resolve .target cwd w.path = .ok ⟨l, some .dir⟩ ∧ entries = t.listing l ∧
      t'.entries? cwd w = .ok (some (t'.listing l)) := by
  rw [entries?] at read
  split at read
  · rename_i way
    split at read
    · cases read
    · rename_i listed
      cases read
      obtain ⟨l, r, rfl⟩ := list_eq_ok_iff.mp listed
      refine ⟨l, r, rfl, ?_⟩
      have listed' := list_eq_ok_iff.mpr ⟨l, resolve_dir_alike g.alike r, rfl⟩
      rw [entries?, if_pos (isWay_alike g.alike way), listed']
  · cases read

/-- A place that was next is still next. -/
lemma next?_grown (g : Grown d t t') {piece : String} {next : Waypoint}
    (leads : t.next? cwd w piece = .ok (some next)) : t'.next? cwd w piece = .ok (some next) := by
  rw [next?] at leads ⊢
  split
  · rename_i pattern
    rw [if_pos pattern] at leads
    cases read : t.entries? cwd w with
    | error e =>
      rw [read] at leads
      cases leads
    | ok entries =>
      rw [read, Except.ok.injEq, Option.map_eq_some_iff] at leads
      obtain ⟨e, found, rfl⟩ := leads
      cases entries with
      | none => cases found
      | some entries =>
        obtain ⟨l, -, rfl, read'⟩ := entries?_grown g read
        rw [Option.getD_some] at found
        rw [read']
        dsimp only
        rw [Option.getD_some, g.find?_listing found]
        rfl
  · rename_i plain
    rw [if_neg plain] at leads
    split
    · rename_i dots
      rw [if_pos dots] at leads
      split at leads
      · rename_i way
        rw [if_pos (isWay_alike g.alike way)]
        exact leads
      · cases leads
    · rename_i name
      rw [if_neg name] at leads
      split at leads
      · rename_i there
        rw [if_pos (g.exists? there)]
        exact leads
      · cases leads

/-- Inputs that are found are those in one directory, and they are found again when outputs have been
written there. -/
lemma search_grown {pieces : List String} (found : t.search cwd w pieces = .ok inputs)
    (some_ : inputs ≠ []) :
    ∃ p d, t.resolve .target cwd p = .ok ⟨d, some .dir⟩ ∧
      inputs = (t.inputsAt d).map p.entry ∧
      ∀ t', Grown d t t' → t'.search cwd w pieces = .ok inputs := by
  induction pieces generalizing w with
  | nil =>
    rw [search] at found
    cases read : t.entries? cwd w with
    | error e =>
      rw [read] at found
      cases found
    | ok entries =>
      rw [read] at found
      cases entries with
      | none =>
        cases found
        exact absurd (by simp) some_
      | some entries =>
        obtain ⟨l, r, rfl, -⟩ := entries?_grown (.refl [] t) read
        rw [Except.ok.injEq, Option.getD_some, names_listing, ← inputsAt] at found
        subst found
        refine ⟨w.path, l, r, rfl, fun t' g => ?_⟩
        obtain ⟨l', r', -, read'⟩ := entries?_grown g read
        cases r.symm.trans r'
        rw [search, read']
        dsimp only
        rw [Option.getD_some, names_listing, ← inputsAt, g.inputsAt l]
  | cons piece pieces ih =>
    rw [search] at found
    cases leads : t.next? cwd w piece with
    | error e =>
      rw [leads] at found
      cases found
    | ok next =>
      rw [leads] at found
      cases next with
      | none =>
        cases found
        exact absurd rfl some_
      | some next =>
        obtain ⟨p, d, r, is, again⟩ := ih found
        refine ⟨p, d, r, is, fun t' g => ?_⟩
        rw [search, next?_grown g leads]
        exact again t' g

/-! ## The directory of the inputs -/

/-- A path and what stands in front of its entries lead to the same directory. -/
lemma directory?_before_eq (t : FileTree) (cwd : Location) (some_ : p.text ≠ "") :
    t.directory? cwd p.before = t.directory? cwd p.text.toList := by
  by_cases here : p = .here
  · subst here
    have before : Path.here.before = [] := by decide
    have same : stepsOf Path.here.text.toList = [.here] := by decide
    have relative : Path.here.text.toList.head? ≠ some '/' := by decide
    rw [before, directory?, directory?, same, approach, if_neg relative]
    rfl
  have empty : ¬p.text.isEmpty := by simpa [String.isEmpty_iff] using some_
  by_cases ends : p.endsInSlash
  · rw [Path.before, if_neg (by simp [here, empty]), if_pos ends]
  · have none : stepsOf [] = [] := rfl
    have chars : p.text.toList ≠ [] := by simpa using some_
    rw [Path.before, if_neg (by simp [here, empty]), if_neg ends, directory?, directory?,
      stepsOf_append, none, List.append_nil, List.head?_append_of_ne_nil _ chars]

/-- Entries are spelled with the path of their directory in front. -/
lemma directory?_before (r : t.resolve .target cwd p = .ok ⟨d, some .dir⟩) :
    ∃ k, t.directory? cwd p.before = some (k, d) := by
  rw [resolve_eq_ok_iff] at r
  obtain ⟨⟨-, empty, -⟩, w⟩ := r
  obtain ⟨k, into⟩ := w.approach rfl
  have some_ : p.text ≠ "" := by simpa [String.isEmpty_iff] using empty
  exact ⟨k, by rw [directory?_before_eq t cwd some_, directory?_text, into]⟩

/-! ## Finding again -/

/-- What is found are the inputs of one directory, and they are found again when outputs have been
written there. -/
lemma discover_grown {dir : Path} (found : t.discover cwd dir = .ok inputs) :
    ∃ (p : Path) (k : ℕ) (d : Location), t.directory? cwd p.before = some (k, d) ∧
      inputs = (t.inputsAt d).map p.entry ∧
      ∀ t', Grown d t t' → t'.discover cwd dir = .ok inputs := by
  rw [discover] at found
  split at found
  · cases found
  · rename_i searched
    split at found
    · cases found
    · rename_i some_
      cases found
      obtain ⟨p, d, r, is, again⟩ := search_grown searched (by simpa using some_)
      obtain ⟨k, into⟩ := directory?_before r
      refine ⟨p, k, d, into, is, fun t' g => ?_⟩
      rw [discover, again t' g]
      exact if_neg some_

end FileTree

end EnumGen
