import EnumGen.Files.Tree

/-!
# Where paths lead

A path is followed through a tree step by step. Every step but the last must come to a directory,
and a symbolic link on the way is replaced by the steps of its target. The result is a `Place`:
a location and what stands there, which may be nothing if only the last name is missing.
-/

namespace EnumGen

/-- Why an operation on files fails. -/
inductive FileError
  | notFound
  | notDirectory
  | isDirectory
  | noSpace
  | nameTooLong
  | tooManyLinks
  /-- the content is not UTF-8 text -/
  | notText
  /-- the path holds a null character -/
  | nullInPath
  /-- a failure of another kind, in the words of the operating system -/
  | other (message : String)
  deriving DecidableEq, Repr

/-- The error in words. -/
def FileError.message : FileError → String
  | notFound => "No such file or directory (os error 2)"
  | notDirectory => "Not a directory (os error 20)"
  | isDirectory => "Is a directory (os error 21)"
  | noSpace => "No space left on device (os error 28)"
  | nameTooLong => "File name too long (os error 36)"
  | tooManyLinks => "Too many levels of symbolic links (os error 40)"
  | notText => "stream did not contain valid UTF-8"
  | nullInPath => "file name contained an unexpected NUL byte"
  | other message => message

/-- The end of a path. -/
structure Place where
  location : Location
  entry : Option Entry
  deriving DecidableEq

/-- What the listing of a directory says of an entry. -/
structure Listed where
  name : String
  /-- the entry itself is a directory, and not a link to one -/
  isDir : Bool
  deriving DecidableEq, Repr

/-- For what a path is followed. -/
inductive Purpose
  /-- for the entry itself: a link at the end is not followed -/
  | entry
  /-- for what is there, beyond any links -/
  | target
  /-- to write a file, which may not be there yet -/
  | writing
  deriving DecidableEq, Repr

/-- The length in bytes that no name exceeds. -/
def maxNameBytes : Nat := 255

/-- The length in bytes that no path reaches. -/
def maxPathBytes : Nat := 4096

/-- The number of links that are followed along one path. -/
def maxLinks : Nat := 40

namespace FileTree

/-- Follows the steps of a path from a directory on, through at most the given number of links. -/
def walk (t : FileTree) (purpose : Purpose) (links : Nat) (dir : Location) (steps : List PathStep) :
    Except FileError Place :=
  match steps with
  | [] => .ok ⟨dir, t.get? dir⟩
  | .here :: rest | .slash :: rest => walk t purpose links dir rest
  | .up :: rest => walk t purpose links dir.tail rest
  | .name n :: rest =>
    if purpose = .writing ∧ rest = [.slash] then .error .isDirectory
    else if maxNameBytes < n.text.utf8ByteSize then .error .nameTooLong
    else
      match t.get? (n :: dir) with
      | none => if rest = [] then .ok ⟨n :: dir, none⟩ else .error .notFound
      | some .dir => walk t purpose links (n :: dir) rest
      | some (.link target) =>
        if rest = [] ∧ purpose = .entry then .ok ⟨n :: dir, some (.link target)⟩
        else
          match links with
          | 0 => .error .tooManyLinks
          | links + 1 =>
            walk t purpose links (if target.isAbsolute then [] else dir) (target.steps ++ rest)
      | some e => if rest = [] then .ok ⟨n :: dir, some e⟩ else .error .notDirectory
termination_by (links, steps.length)

/-- Follows a path from a current directory. -/
def resolve (t : FileTree) (purpose : Purpose) (cwd : Location) (p : Path) :
    Except FileError Place :=
  if p.text.toList.contains '\x00' then .error .nullInPath
  else if p.text.isEmpty then .error .notFound
  else if maxPathBytes ≤ p.text.utf8ByteSize then .error .nameTooLong
  else t.walk purpose maxLinks (if p.isAbsolute then [] else cwd) p.steps

/-! ## Operations -/

/-- The content of a file. -/
def read (t : FileTree) (cwd : Location) (p : Path) : Except FileError ByteArray :=
  match t.resolve .target cwd p with
  | .error e => .error e
  | .ok ⟨_, entry⟩ =>
    match entry with
    | none => .error .notFound
    | some .dir => .error .isDirectory
    | some (.file content) => .ok content
    | some (.link _) => .error .tooManyLinks
    | some .fullDevice => .ok .empty

/-- Replaces or creates a file. A file that cannot be opened is left as it is. -/
def write (t : FileTree) (cwd : Location) (p : Path) (content : ByteArray) :
    Except FileError Unit × FileTree :=
  match t.resolve .writing cwd p with
  | .error e => (.error e, t)
  | .ok ⟨location, entry⟩ =>
    match entry with
    | none | some (.file _) => (.ok (), t.put location (.file content))
    | some .dir => (.error .isDirectory, t)
    | some (.link _) => (.error .tooManyLinks, t)
    | some .fullDevice => (if content.isEmpty then .ok () else .error .noSpace, t)

/-- Removes a file or a link. Directories stay, and so does everything if the path leads nowhere. -/
def remove (t : FileTree) (cwd : Location) (p : Path) : FileTree :=
  match t.resolve .entry cwd p with
  | .error _ => t
  | .ok ⟨location, entry⟩ =>
    match entry with
    | none | some .dir => t
    | some _ => t.erase location

/-- A directory is at the end of the path. -/
def isDir (t : FileTree) (cwd : Location) (p : Path) : Bool :=
  match t.resolve .target cwd p with
  | .ok ⟨_, some .dir⟩ => true
  | _ => false

/-- Something is at the end of the path, or a link that leads nowhere. -/
def exists? (t : FileTree) (cwd : Location) (p : Path) : Bool :=
  match t.resolve .target cwd p, t.resolve .entry cwd p with
  | .ok ⟨_, some _⟩, _ => true
  | _, .ok ⟨_, some _⟩ => true
  | _, _ => false

/-- The listing of a directory. -/
def list (t : FileTree) (cwd : Location) (p : Path) : Except FileError (List Listed) :=
  match t.resolve .target cwd p with
  | .error e => .error e
  | .ok ⟨location, entry⟩ =>
    match entry with
    | some .dir =>
      .ok ((t.children location).map fun n => ⟨n.text, t.get? (n :: location) = some .dir⟩)
    | none => .error .notFound
    | some _ => .error .notDirectory

end FileTree

end EnumGen
