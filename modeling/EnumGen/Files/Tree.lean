import EnumGen.Files.Path

/-!
# File trees

A tree of directories, files and symbolic links. An entry is known by its location, and a tree is
the finite map from locations to entries: `get?` looks an entry up, `put` and `erase` change one
entry and leave every other one alone (`get?_put`, `get?_erase`).
-/

namespace EnumGen

/-- Contents are compared byte by byte. -/
local instance (priority := high) decEqContent : DecidableEq ByteArray :=
  ByteArray.instDecidableEq

/-- What stands at one location. -/
inductive Entry
  | dir
  | file (content : ByteArray)
  | link (target : Path)
  /-- a device on which every write fails for want of space -/
  | fullDevice
  deriving DecidableEq

/-- The names on the way from the root to an entry, innermost first. -/
abbrev Location := List Name

/-- The entries of a file tree; the root is always a directory. -/
structure FileTree where
  entries : List (Location × Entry)
  nodup : (entries.map Prod.fst).Nodup

namespace FileTree

/-- The tree that holds nothing but its root. -/
def empty : FileTree :=
  ⟨[], .nil⟩

/-- The entry at a location. -/
def get? (t : FileTree) (l : Location) : Option Entry :=
  if l = [] then some .dir else t.entries.lookup l

/-- Removes the entry at a location. -/
def erase (t : FileTree) (l : Location) : FileTree where
  entries := t.entries.filter (·.1 != l)
  nodup := (List.filter_sublist.map _).nodup t.nodup

/-- Puts an entry at a location, in the place of what stands there. -/
def put (t : FileTree) (l : Location) (e : Entry) : FileTree where
  entries := (l, e) :: (t.erase l).entries
  nodup := by
    refine List.nodup_cons.2 ⟨?_, (t.erase l).nodup⟩
    simp [erase]

/-- The names in a directory. -/
def children (t : FileTree) (l : Location) : List Name :=
  t.entries.filterMap fun e =>
    match e.1 with
    | [] => none
    | n :: d => if d = l then some n else none

/-- Makes a directory with those above it, where nothing stands. -/
def makeDirs (t : FileTree) : Location → FileTree
  | [] => t
  | n :: d =>
    let t := t.makeDirs d
    match t.get? (n :: d) with
    | none => t.put (n :: d) .dir
    | some _ => t

theorem lookup_isSome_iff (es : List (Location × Entry)) (l : Location) :
    (es.lookup l).isSome ↔ l ∈ es.map Prod.fst := by
  induction es with
  | nil => simp
  | cons e es ih =>
    obtain ⟨m, e⟩ := e
    by_cases h : l = m
    · simp [h]
    · have : (l == m) = false := by simpa using h
      simp [h, List.lookup_cons, this, ih]

/-- The names in a directory are those of the entries there. -/
theorem mem_children {t : FileTree} {l : Location} {n : Name} :
    n ∈ t.children l ↔ (t.get? (n :: l)).isSome := by
  simp only [get?, List.cons_ne_nil, ↓reduceIte, lookup_isSome_iff, children, List.mem_filterMap,
    List.mem_map]
  constructor
  · rintro ⟨⟨k, e⟩, he, hk⟩
    refine ⟨⟨k, e⟩, he, ?_⟩
    cases k with
    | nil => cases hk
    | cons m d =>
      by_cases hd : d = l
      · simp_all
      · simp [hd] at hk
  · rintro ⟨⟨k, e⟩, he, rfl⟩
    exact ⟨(n :: l, e), he, by simp⟩

/-- No name is listed twice. -/
theorem nodup_children (t : FileTree) (l : Location) : (t.children l).Nodup := by
  have distinct := t.nodup
  rw [List.nodup_iff_pairwise_ne, List.pairwise_map] at distinct
  rw [children, List.nodup_iff_pairwise_ne, List.pairwise_filterMap]
  refine distinct.imp ?_
  intro e e' hne n hn n' hn'
  obtain ⟨k, e⟩ := e
  obtain ⟨k', e'⟩ := e'
  cases k <;> cases k' <;> grind

theorem lookup_filter_ne (es : List (Location × Entry)) (l k : Location) :
    (es.filter (·.1 != l)).lookup k = if k = l then none else es.lookup k := by
  induction es with
  | nil => simp
  | cons e es ih =>
    obtain ⟨m, e⟩ := e
    by_cases hm : m = l
    · subst hm
      simp only [bne_self_eq_false, Bool.false_eq_true, not_false_eq_true,
        List.filter_cons_of_neg, ih]
      by_cases hk : k = m
      · simp [hk]
      · have : (k == m) = false := by simpa using hk
        simp [hk, List.lookup_cons, this]
    · by_cases hk : k = m
      · subst hk
        simp [hm]
      · have : (k == m) = false := by simpa using hk
        simp [hm, List.lookup_cons, this, ih]

theorem get?_erase (t : FileTree) (l k : Location) :
    (t.erase l).get? k = if k = [] then some .dir else if k = l then none else t.get? k := by
  by_cases hk : k = []
  · simp [get?, hk]
  · simp [get?, hk, erase, lookup_filter_ne]

theorem get?_put (t : FileTree) (l k : Location) (e : Entry) :
    (t.put l e).get? k = if k = [] then some .dir else if k = l then some e else t.get? k := by
  by_cases hk : k = []
  · simp [get?, hk]
  · by_cases hl : k = l
    · subst hl
      simp [get?, put, hk]
    · have : (k == l) = false := by simpa using hl
      simp [get?, hk, put, erase, hl, List.lookup_cons, this, lookup_filter_ne]

end FileTree

end EnumGen
