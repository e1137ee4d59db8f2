import EnumGen.Host

/-!
# The inputs of a run

The inputs are the files that are named, or else all entries of a directory whose names end in
`.enum`. The directory is found piece by piece, and the spelling of the inputs follows the pieces:
the current directory is not spelled out, so the inputs in `./sub` are spelled `sub/a.enum`.
-/

namespace EnumGen

/-- Characters with a meaning of their own in a file pattern. -/
def isPatternChar (c : Char) : Bool :=
  c = '?' || c = '*' || c = '[' || c = ']'

/-- A pattern that matches a text and nothing else. -/
def escapePattern (s : List Char) : List Char :=
  s.flatMap fun c => if isPatternChar c then ['[', c, ']'] else [c]

/-- The pattern for the inputs in a directory. -/
def inputPattern (dir : Path) : Path :=
  Path.join ⟨String.ofList (escapePattern dir.text.toList)⟩ ⟨"*.enum"⟩

/-- The name is that of an input. -/
def isInputName (name : String) : Bool :=
  ".enum".toList.isSuffixOf name.toList

/-- The current directory. -/
def Path.here : Path := ⟨"."⟩

/-- An entry of a directory; those of the current directory are spelled by their names alone. -/
def Path.entry (dir : Path) (name : String) : Path :=
  if dir = .here then ⟨name⟩ else dir.join ⟨name⟩

/-- The pieces of a directory's path after the slash for the root. A slash at the end starts no
further piece. -/
def Path.pieces (dir : Path) : List String :=
  let text := if dir.isAbsolute then dir.text.toList.tail else dir.text.toList
  let pieces := splitSlashes text
  (if pieces.getLast? = some [] then pieces.dropLast else pieces).map String.ofList

/-- A place on the way to the inputs. A directory that a listing has shown to be one is not looked
at again before it is listed itself, so the path to it may be too long to be followed. -/
structure Waypoint where
  path : Path
  /-- a listing has shown that this is a directory -/
  seen : Bool
  deriving DecidableEq, Repr

section

variable {m : Type → Type} [Monad m] [Host m]

/-- Whether a place on the way is a directory. -/
def Waypoint.isDir (w : Waypoint) : m Bool :=
  if w.seen then pure true else Host.isDir w.path

/-- The listing of a place on the way, if it is a directory. -/
def Waypoint.list? (w : Waypoint) : ExceptT Failure m (Option (List Listed)) := do
  if ← (w.isDir : m Bool) then
    match ← (Host.list w.path : m _) with
    | .error e => throw (.io w.path e)
    | .ok entries => pure (some entries)
  else pure none

/-- The next place on the way, if it can be there. A piece with pattern characters has to be among
the names of a directory, any other piece only has to lead somewhere. -/
def Waypoint.next? (w : Waypoint) (piece : String) : ExceptT Failure m (Option Waypoint) := do
  let next := w.path.entry piece
  if piece.toList.any isPatternChar then
    let entry := ((← w.list?).getD []).find? fun e => e.name = piece
    pure (entry.map fun e => ⟨next, e.isDir⟩)
  else if piece = "." ∨ piece = ".." then
    pure (if ← (w.isDir : m Bool) then some ⟨next, false⟩ else none)
  else
    pure (if ← (Host.isPresent next : m Bool) then some ⟨next, false⟩ else none)

/-- The inputs in the directory that is reached along the pieces. -/
def search (w : Waypoint) : List String → ExceptT Failure m (List Path)
  | piece :: pieces => do
    match ← w.next? piece with
    | some next => search next pieces
    | none => pure []
  | [] => do
    let names := ((← w.list?).getD []).map Listed.name
    pure (((names.filter isInputName).mergeSort fun a b => decide (a ≤ b)).map w.path.entry)

/-- The named files, or the inputs in a directory in the order of their names. -/
def discover (files : List Path) (dir : Path) : ExceptT Failure m (List Path) := do
  if !files.isEmpty then return files
  let found ← search ⟨if dir.isAbsolute then ⟨"/"⟩ else .here, false⟩ dir.pieces
  (Host.log (.searched found.length (inputPattern dir).text) : m Unit)
  if found.isEmpty then throw .noInputs
  pure found

end

end EnumGen
