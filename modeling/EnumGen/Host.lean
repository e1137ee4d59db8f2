import EnumGen.Code.Stamp
import EnumGen.Host.Event

/-!
# The surroundings of a run

The program works on whatever offers the operations of `Host`: files, a clock and a log. A
`Machine` offers them as a value, so that a run on it is a function from machines to machines.
-/

namespace EnumGen

/-- What the program needs of its surroundings. -/
class Host (m : Type → Type) where
  /-- the content of a file -/
  read : Path → m (Except FileError ByteArray)
  /-- replaces or creates a file -/
  write : Path → ByteArray → m (Except FileError Unit)
  /-- removes a file or a link, if it can be removed -/
  remove : Path → m Unit
  /-- whether a path leads to a directory -/
  isDir : Path → m Bool
  /-- whether a path leads to anything, if only to a link -/
  isPresent : Path → m Bool
  /-- the listing of a directory, in any order -/
  list : Path → m (Except FileError (List Listed))
  /-- the local date and time -/
  now : m Code.Stamp
  /-- adds a record to the log -/
  log : Event → m Unit

/-- A file tree with a current directory, a clock that stands still and a log. -/
structure Machine where
  tree : FileTree
  cwd : Location
  clock : Code.Stamp
  log : Array Event

namespace Machine

/-- The machine after a file is written, with the outcome. -/
def write (h : Machine) (p : Path) (content : ByteArray) : Except FileError Unit × Machine :=
  let (outcome, tree) := h.tree.write h.cwd p content
  (outcome, { h with tree })

/-- The machine after a file or a link is removed. -/
def remove (h : Machine) (p : Path) : Machine :=
  { h with tree := h.tree.remove h.cwd p }

end Machine

instance : Host (StateM Machine) where
  read p h := (h.tree.read h.cwd p, h)
  write p content h := h.write p content
  remove p h := ((), h.remove p)
  isDir p h := (h.tree.isDir h.cwd p, h)
  isPresent p h := (h.tree.exists? h.cwd p, h)
  list p h := (h.tree.list h.cwd p, h)
  now h := (h.clock, h)
  log e h := ((), { h with log := h.log.push e })

end EnumGen
