import EnumGen.Proofs.Files.Walk

/-!
# What writing and removing change

Whoever writes a file takes the place of a file or of nothing. No passage is opened or closed, so all
paths lead where they led before, and only what is read at this one location is new
(`read_put`). Whoever removes an entry cuts off the paths that have it on their way, and no others
(`read_erase_iff`).
-/

namespace EnumGen.FileTree

variable {t t' : FileTree} {purpose : Purpose} {cwd k l : Location} {p : Path} {place : Place}
  {content bytes : ByteArray}

/-! ## Whole paths -/

/-- A path that the operating system accepts. -/
def Accepted (p : Path) : Prop :=
  '\x00' ∉ p.text.toList ∧ ¬p.text.isEmpty ∧ p.text.utf8ByteSize < maxPathBytes

instance (p : Path) : Decidable (Accepted p) :=
  inferInstanceAs (Decidable (_ ∧ _))

lemma resolve_eq_ok_iff : t.resolve purpose cwd p = .ok place ↔
    Accepted p ∧ Leads t purpose maxLinks (start p cwd) p.steps place := by
  rw [resolve, ← walk_eq_ok_iff, Accepted, ← start]
  by_cases null : '\x00' ∈ p.text.toList
  · simp [null]
  by_cases empty : p.text.isEmpty
  · rw [if_neg (by simpa using null), if_pos empty]
    simp [empty]
  rw [if_neg (by simpa using null), if_neg empty]
  by_cases long : maxPathBytes ≤ p.text.utf8ByteSize
  · rw [if_pos long]
    exact ⟨nofun, fun accepted => absurd accepted.1.2.2 (Nat.not_lt.mpr long)⟩
  · rw [if_neg long]
    exact (and_iff_right ⟨null, empty, Nat.not_le.mp long⟩).symm

/-- The locations that are looked up on the way along a path. -/
def wayTo (t : FileTree) (cwd : Location) (p : Path) : List Location :=
  t.trail maxLinks (start p cwd) p.steps

/-- The location that a path leads to, where something stands or could be written. -/
def location? (t : FileTree) (cwd : Location) (p : Path) : Option Location :=
  match t.resolve .target cwd p with
  | .ok place => some place.location
  | .error _ => none

lemma location?_eq_some_iff :
    t.location? cwd p = some l ↔ t.resolve .target cwd p = .ok ⟨l, t.get? l⟩ := by
  rw [location?]
  cases r : t.resolve .target cwd p with
  | error e => simp
  | ok place =>
    have entry := (resolve_eq_ok_iff.mp r).2.entry
    obtain ⟨k, e⟩ := place
    dsimp only at entry ⊢
    subst entry
    rw [Option.some_inj, Except.ok.injEq, Place.mk.injEq]
    constructor
    · rintro rfl
      exact ⟨rfl, rfl⟩
    · exact And.left

/-- What is written to a path is found by it. -/
lemma location?_of_writing (r : t.resolve .writing cwd p = .ok place) :
    t.location? cwd p = some place.location ∧ place.entry = t.get? place.location := by
  rw [resolve_eq_ok_iff] at r
  have entry := r.2.entry
  refine ⟨?_, entry⟩
  rw [location?_eq_some_iff, ← entry, resolve_eq_ok_iff]
  exact ⟨r.1, r.2.readable⟩

/-- With the same passages on the way, a path leads to the same location. -/
lemma location?_alike (leads : t.location? cwd p = some l)
    (same : ∀ k ∈ t.wayTo cwd p, AlikeAt t t' k) : t'.location? cwd p = some l := by
  rw [location?_eq_some_iff, resolve_eq_ok_iff] at leads ⊢
  exact ⟨leads.1, leads.2.alike same⟩

/-- What is read from an entry. -/
def readEntry : Option Entry → Except FileError ByteArray
  | none => .error .notFound
  | some .dir => .error .isDirectory
  | some (.file content) => .ok content
  | some (.link _) => .error .tooManyLinks
  | some .fullDevice => .ok .empty

lemma read_of_location? (leads : t.location? cwd p = some l) :
    t.read cwd p = readEntry (t.get? l) := by
  rw [location?_eq_some_iff] at leads
  rw [read, leads]
  cases t.get? l with
  | none => rfl
  | some e => cases e <;> rfl

lemma location?_of_read (r : t.read cwd p = .ok content) :
    ∃ l, t.location? cwd p = some l ∧ readEntry (t.get? l) = .ok content := by
  cases leads : t.location? cwd p with
  | some l => exact ⟨l, rfl, by rw [← read_of_location? leads, r]⟩
  | none =>
    rw [location?] at leads
    cases found : t.resolve .target cwd p with
    | ok place => rw [found] at leads; cases leads
    | error e => rw [read, found] at r; cases r

/-! ## Writing -/

/-- The trees have the same passages everywhere. -/
def Alike (t t' : FileTree) : Prop :=
  ∀ l, AlikeAt t t' l

lemma Alike.symm (a : Alike t t') : Alike t' t :=
  fun l e passage => (a l e passage).symm

lemma Alike.location? (a : Alike t t') (cwd : Location) (p : Path) :
    t'.location? cwd p = t.location? cwd p := by
  cases leads : t.location? cwd p with
  | some l => exact location?_alike leads fun k _ => a k
  | none =>
    cases leads' : t'.location? cwd p with
    | none => rfl
    | some l =>
      rw [location?_alike leads' fun k _ => a.symm k] at leads
      cases leads

/-- The location is free for a file: there is nothing, or a file that is replaced. -/
def Free (t : FileTree) (l : Location) : Prop :=
  t.get? l = none ∨ ∃ old, t.get? l = some (.file old)

lemma Free.ne_nil (free : t.Free l) : l ≠ [] := by
  rintro rfl
  obtain none | ⟨old, file⟩ := free
  · cases none
  · cases file

lemma Free.not_isPassage (free : t.Free l) {e : Entry} (found : t.get? l = some e) :
    ¬e.IsPassage := by
  obtain none | ⟨old, file⟩ := free
  · cases none.symm.trans found
  · cases file.symm.trans found
    exact id

lemma get?_put_self (ne : l ≠ []) (e : Entry) : (t.put l e).get? l = some e := by
  rw [get?_put, if_neg ne, if_pos rfl]

lemma get?_put_of_ne (other : k ≠ l) (e : Entry) : (t.put l e).get? k = t.get? k := by
  rw [get?_put, if_neg other]
  by_cases root : k = []
  · subst root
    rfl
  · rw [if_neg root]

lemma Free.put (free : t.Free k) (content : ByteArray) : (t.put l (.file content)).Free k := by
  by_cases is : k = l
  · subst is
    exact .inr ⟨content, get?_put_self free.ne_nil _⟩
  · rw [Free, get?_put_of_ne is]
    exact free

/-- A file in the place of a file or of nothing changes no passage. -/
lemma alike_put (free : t.Free l) (content : ByteArray) : Alike t (t.put l (.file content)) := by
  intro k e passage
  by_cases is : k = l
  · subst is
    constructor <;> intro found
    · exact absurd passage (free.not_isPassage found)
    · rw [get?_put_self free.ne_nil] at found
      cases found
      cases passage
  · rw [get?_put_of_ne is]

/-- What is not empty is written as a file where there was a file or nothing. -/
lemma write_ok {bytes : ByteArray} (some_ : ¬bytes.isEmpty)
    (w : (t.write cwd p bytes).1 = .ok ()) :
    ∃ l, t.location? cwd p = some l ∧ t.Free l ∧
      (t.write cwd p bytes).2 = t.put l (.file bytes) := by
  rw [write] at w ⊢
  cases r : t.resolve .writing cwd p with
  | error e => rw [r] at w; cases w
  | ok place =>
    obtain ⟨leads, entry⟩ := location?_of_writing r
    obtain ⟨l, e⟩ := place
    dsimp only at leads entry
    subst entry
    rw [r] at w
    refine ⟨l, leads, ?_⟩
    dsimp only at w ⊢
    cases found : t.get? l with
    | none => exact ⟨.inl found, rfl⟩
    | some e =>
      rw [found] at w
      cases e with
      | file old => exact ⟨.inr ⟨old, found⟩, rfl⟩
      | dir | link => cases w
      | fullDevice =>
        dsimp only at w
        rw [if_neg some_] at w
        cases w

lemma write_error {bytes : ByteArray} {e : FileError} (w : (t.write cwd p bytes).1 = .error e) :
    (t.write cwd p bytes).2 = t := by
  rw [write] at w ⊢
  cases r : t.resolve .writing cwd p with
  | error e => rfl
  | ok place =>
    obtain ⟨l, e⟩ := place
    rw [r] at w
    cases e with
    | none => cases w
    | some e =>
      cases e with
      | file => cases w
      | dir | link | fullDevice => rfl

/-- A new file is read by every path that leads to it, and other paths read what they read before. -/
lemma read_put (free : t.Free l) (content : ByteArray) (leads : t.location? cwd p = some k) :
    (t.put l (.file content)).read cwd p = if k = l then .ok content else t.read cwd p := by
  have after : (t.put l (.file content)).location? cwd p = some k := by
    rw [(alike_put free content).location?, leads]
  rw [read_of_location? after, read_of_location? leads]
  by_cases is : k = l
  · subst is
    rw [get?_put_self free.ne_nil, if_pos rfl]
    rfl
  · rw [get?_put_of_ne is, if_neg is]

/-! ## Removing -/

/-- The location of what is taken away when a path is removed. -/
def removed? (t : FileTree) (cwd : Location) (p : Path) : Option Location :=
  match t.resolve .entry cwd p with
  | .error _ => none
  | .ok ⟨l, entry⟩ =>
    match entry with
    | none | some .dir => none
    | some _ => some l

lemma remove_eq (t : FileTree) (cwd : Location) (p : Path) :
    t.remove cwd p = ((t.removed? cwd p).map t.erase).getD t := by
  rw [remove, removed?]
  cases t.resolve .entry cwd p with
  | error e => rfl
  | ok place =>
    obtain ⟨l, e⟩ := place
    cases e with
    | none => rfl
    | some e => cases e <;> rfl

/-- It is the entry that the path names, a link itself and not its target, and no directory. -/
lemma resolve_of_removed? (taken : t.removed? cwd p = some l) :
    ∃ e, t.resolve .entry cwd p = .ok ⟨l, some e⟩ ∧ e ≠ .dir ∧ t.get? l = some e := by
  rw [removed?] at taken
  cases r : t.resolve .entry cwd p with
  | error e => rw [r] at taken; cases taken
  | ok place =>
    have entry := (resolve_eq_ok_iff.mp r).2.entry
    obtain ⟨k, e⟩ := place
    rw [r] at taken
    cases e with
    | none => cases taken
    | some e =>
      cases e with
      | dir => cases taken
      | file | link | fullDevice =>
        cases taken
        exact ⟨_, rfl, nofun, entry.symm⟩

lemma ne_nil_of_removed? (taken : t.removed? cwd p = some l) : l ≠ [] := by
  rintro rfl
  obtain ⟨e, -, ne, found⟩ := resolve_of_removed? taken
  exact ne (Option.some.inj found).symm

/-- A path is cut off exactly if the entry that is erased is on its way. -/
lemma read_erase_iff (r : t.read cwd p = .ok content) (ne : l ≠ []) :
    (t.erase l).read cwd p = .ok content ↔ l ∉ t.wayTo cwd p := by
  obtain ⟨k, leads, entry⟩ := location?_of_read r
  have w := resolve_eq_ok_iff.mp (location?_eq_some_iff.mp leads)
  constructor
  · intro r' on
    obtain ⟨k', leads', entry'⟩ := location?_of_read r'
    have w' := (resolve_eq_ok_iff.mp (location?_eq_some_iff.mp leads')).2.walk
    obtain error | ok := w.2.walk_erase ne on
    · rw [error] at w'
      cases w'
    · rw [ok, Except.ok.injEq, Place.mk.injEq] at w'
      rw [← w'.2] at entry'
      cases entry'
  · intro off
    -- the walk looks nothing up that has changed
    have same : ∀ k ∈ t.wayTo cwd p, (t.erase l).get? k = t.get? k := by
      intro k on
      have other : k ≠ l := by
        rintro rfl
        exact off on
      rw [get?_erase, if_neg other]
      by_cases root : k = []
      · subst root
        rfl
      · rw [if_neg root]
    have leads' : (t.erase l).location? cwd p = some k := by
      refine location?_alike leads ?_
      intro k' on e passage
      rw [same k' on]
    rw [read_of_location? leads', same k w.2.mem_trail, entry]

end EnumGen.FileTree
