/-!
# Paths

A path is a text in which slashes separate the components. Its last component that is neither
empty nor a single dot is its name, unless that is `..`; `Path.output` replaces the extension of
the name.
-/

namespace EnumGen

/-- The text of a path. -/
structure Path where
  text : String
  deriving DecidableEq, Repr, Inhabited

/-- The pieces of a text between slashes; there is always one more than there are slashes. -/
def splitSlashes : List Char → List (List Char)
  | [] => [[]]
  | c :: s =>
    if c = '/' then [] :: splitSlashes s
    else
      match splitSlashes s with
      | [] => [[c]]
      | p :: ps => (c :: p) :: ps

/-- What can be the name of an entry: some characters, none of them a slash or a null character,
that do not stand for the directory itself or the one above. -/
def IsName (s : List Char) : Prop :=
  s ≠ [] ∧ s ≠ ['.'] ∧ s ≠ ['.', '.'] ∧ '/' ∉ s ∧ '\x00' ∉ s

instance (s : List Char) : Decidable (IsName s) :=
  inferInstanceAs (Decidable (_ ∧ _))

/-- The name of an entry of a directory. -/
structure Name where
  text : String
  isName : IsName text.toList
  deriving DecidableEq, Repr

/-- The name that consists of the characters, if they can be a name. -/
def Name.ofChars? (s : List Char) : Option Name :=
  if h : IsName s then some ⟨String.ofList s, by simpa using h⟩ else none

/-- One step on the way along a path. -/
inductive PathStep
  /-- to the entry of a name -/
  | name (n : Name)
  /-- to the directory itself -/
  | here
  /-- to the directory above -/
  | up
  /-- the slash at the end of a path, which asks for a directory -/
  | slash
  deriving DecidableEq, Repr

/-- The step that a piece between slashes asks for. -/
def PathStep.ofPiece? : List Char → Option PathStep
  | [] => none
  | ['.'] => some .here
  | ['.', '.'] => some .up
  | n => (Name.ofChars? n).map .name

namespace Path

/-- The path starts from the root. -/
def isAbsolute (p : Path) : Bool :=
  p.text.toList.head? = some '/'

/-- The path ends in a slash. -/
def endsInSlash (p : Path) : Bool :=
  p.text.toList.getLast? = some '/'

/-- The steps along a path. Empty pieces are no steps, apart from the one after a last slash. -/
def steps (p : Path) : List PathStep :=
  (splitSlashes p.text.toList).filterMap PathStep.ofPiece? ++
    if p.endsInSlash then [.slash] else []

/-- A path continued by another one. -/
def join (p q : Path) : Path :=
  if q.isAbsolute then q
  else if p.text.isEmpty || p.endsInSlash then ⟨p.text ++ q.text⟩
  else ⟨p.text ++ "/" ++ q.text⟩

/-! ### Names and extensions -/

/-- Drops slashes and single-dot components from the end of a path; the text is given backwards. -/
def dropTrailing : List Char → List Char
  | '/' :: s => dropTrailing s
  | '.' :: '/' :: s => dropTrailing s
  | s => s

/-- A text before and after its last occurrence of a character, which stays with the first part.
Without an occurrence the first part is empty. -/
def splitAfterLast (c : Char) (s : List Char) : List Char × List Char :=
  ((s.reverse.dropWhile (· != c)).reverse, (s.reverse.takeWhile (· != c)).reverse)

/-- The stem and the extension of a name. A dot that is the first character starts none. -/
def splitExtension? (name : List Char) : Option (List Char × List Char) :=
  match splitAfterLast '.' name with
  | ([], _) | ([_], _) => none
  | (stem, extension) => some (stem.dropLast, extension)

/-- A path with the extension `go`. The old extension is cut off first. What is then left of a name
like `..enum` is `..`, which has no extension to replace. -/
def outputChars (p : List Char) : List Char :=
  let body := (dropTrailing p.reverse).reverse
  let (dir, name) := splitAfterLast '/' body
  if name = [] ∨ name = ['.'] ∨ name = ['.', '.'] then p
  else
    match splitExtension? name with
    | none => dir ++ name ++ ".go".toList
    | some (stem, extension) =>
      if stem = ['.'] ∧ extension ≠ [] ∧ body = p then dir ++ ['.', '.']
      else dir ++ stem ++ ".go".toList

/-- Where the code generated from a definition file goes. -/
def output (p : Path) : Path :=
  ⟨String.ofList (outputChars p.text.toList)⟩

end Path

end EnumGen
