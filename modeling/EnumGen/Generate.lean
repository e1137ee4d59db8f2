import EnumGen.Code.Render
import EnumGen.Document.Parse
import EnumGen.Host

/-!
# Generating code from definition files

A definition file is read, rendered and written next to itself. Nothing is written before the
whole file has been read and understood, and an output that cannot be written is removed. Several
files are processed in order up to the first failure.
-/

namespace EnumGen

/-- What is generated, and for whom. -/
structure Job where
  flavour : Code.Flavour
  user : String
  deriving DecidableEq, Repr

section

variable {m : Type → Type} [Monad m] [Host m]

/-- Adds records to the log, in order. -/
def logAll (events : List ParseEvent) : m Unit :=
  events.forM fun e => Host.log (.parse e)

/-- The document in a file. -/
def parseFile (input : Path) : ExceptT Failure m Document := do
  match ← (Host.read input : m _) with
  | .error e => throw (.io input e)
  | .ok bytes =>
    match String.fromUTF8? bytes with
    | none => throw (.io input .notText)
    | some source =>
      let (document, cursor) := (Cursor.ofSource source).readDocument
      (logAll cursor.events.toList : m Unit)
      match cursor.finish document with
      | .error e => throw (.parse input e)
      | .ok document => pure document

/-- Generates the code of one definition file. -/
def process (job : Job) (input : Path) : ExceptT Failure m Path := do
  let document ← parseFile input
  let stamp ← (Host.now : m _)
  let text := Code.render job.flavour ⟨input.text, job.user, stamp⟩ document
  let output := input.output
  match ← (Host.write output text.toUTF8 : m _) with
  | .error e =>
    (Host.remove output : m Unit)
    throw (.io output e)
  | .ok () =>
    (Host.log (.generated input output document.enums.length job.flavour) : m Unit)
    pure output

/-- Generates the code of definition files, up to the first failure. -/
def processAll (job : Job) (inputs : List Path) : ExceptT Failure m (List Path) :=
  inputs.mapM (process job)

end

end EnumGen
