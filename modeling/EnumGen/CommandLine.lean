import EnumGen.Generate
import EnumGen.Inputs

/-!
# The command line

Arguments are read from left to right. A flavour flag and `--user` may each stand once, `-v` and
`--verbose` any number of times, and files anywhere; after `--` every argument is a file. The
first fault ends the reading, but two different flavours are refused only after it. Files that
stand together, and `--user` with its value, are judged as a group: a fault in the group gives way
to an argument right behind it that is not understood at all (`blame`).
-/

namespace EnumGen

/-- The environment variables of a run. -/
structure Environment where
  settings : List (String × String)
  deriving DecidableEq, Repr

/-- The value of a variable, if it is set. -/
def Environment.get? (env : Environment) (name : String) : Option String :=
  env.settings.lookup name

/-- What the command line asks for. -/
structure Options where
  flavour : Code.Flavour
  verbose : Nat
  user : Option String
  files : List Path
  deriving DecidableEq, Repr

/-- Why a command line is not carried out. -/
inductive UsageError
  /-- two flavours, or something given twice that may be given once -/
  | conflict
  | unknownArgument
  /-- a value is missing, or it is the empty name of a file -/
  | invalidValue
  /-- a flag is given a value -/
  | tooManyValues
  /-- help is asked for -/
  | help
  /-- the version is asked for -/
  | version
  deriving DecidableEq, Repr

/-- The exit code of the program. -/
def UsageError.exitCode : UsageError → Nat
  | help | version => 0
  | _ => 2

/-- The program and its version. -/
def versionText : String := "enums 0.1.0"

/-- What one argument is, as far as it can be told from the argument alone. -/
inductive Argument
  | flavour (f : Code.Flavour)
  | verbose (times : Nat)
  | user (name : String)
  /-- the next argument is a user name -/
  | userNext
  | file (path : Path)
  /-- only files follow -/
  | filesOnly
  /-- the argument is understood and ends the reading -/
  | ends (e : UsageError)
  /-- the argument is not understood -/
  | refused (e : UsageError)
  deriving DecidableEq, Repr

namespace Argument

/-- The flag that selects a flavour. -/
def flavourFlags : List (String × Code.Flavour) :=
  [("fmt-scanner", .fmtScanner), ("sql-scanner", .sqlScanner), ("json", .json), ("xml", .xml)]

/-- A flag by its name, with the value after its equals sign. Only `user` takes one. -/
def ofFlag (name : String) (value : Option String) : Argument :=
  if name = "user" then
    match value with
    | some v => .user v
    | none => .userNext
  else
    let flag :=
      match flavourFlags.lookup name with
      | some f => some (.flavour f)
      | none =>
        if name = "verbose" then some (.verbose 1)
        else if name = "help" then some (.ends .help)
        else if name = "version" then some (.ends .version)
        else none
    match flag, value with
    | none, _ => .refused .unknownArgument
    | some _, some _ => .refused .tooManyValues
    | some a, none => a

/-- One-letter flags that stand together. The first that is not `v` decides; an unknown one is
understood as far as the flags before it are. -/
def ofLetters (letters : List Char) : Argument :=
  match letters.dropWhile (· == 'v') with
  | [] => .verbose letters.length
  | 'V' :: _ => .ends .version
  | 'h' :: _ => .ends .help
  | _ => if letters.head? = some 'v' then .ends .unknownArgument else .refused .unknownArgument

/-- What an argument is. -/
def ofChars (arg : List Char) : Argument :=
  match arg with
  | ['-'] => .file ⟨"-"⟩
  | ['-', '-'] => .filesOnly
  | '-' :: '-' :: flag =>
    ofFlag (String.ofList (flag.takeWhile (· != '=')))
      (match flag.dropWhile (· != '=') with
        | [] => none
        | _ :: value => some (String.ofList value))
  | '-' :: letters => ofLetters letters
  | _ => .file ⟨String.ofList arg⟩

/-- What an argument is. -/
def ofString (arg : String) : Argument :=
  ofChars arg.toList

/-- An argument that can be the value of `--user` before it. -/
def isValue (arg : String) : Bool :=
  arg = "-" || arg.toList.head? != some '-'

/-- An argument that is a file. -/
def isFile (arg : String) : Bool :=
  match ofString arg with
  | .file _ => true
  | _ => false

end Argument

/-- What is reported for a fault in a group of arguments, from the arguments behind the group: one
that is not understood comes first. -/
def UsageError.blame (e : UsageError) (args : List String) : UsageError :=
  match args.head?.map Argument.ofString with
  | some (.refused e') => e'
  | _ => e

/-- What the arguments read so far have given; the files are in reverse order. -/
structure Given where
  flavours : List Code.Flavour
  verbose : Nat
  user : Option String
  files : List Path
  deriving DecidableEq, Repr

namespace Given

/-- Nothing has been given. -/
def none : Given := ⟨[], 0, .none, []⟩

/-- Adds a flavour, which may be given once. -/
def addFlavour (g : Given) (f : Code.Flavour) : Except UsageError Given :=
  if g.flavours.contains f then .error .conflict else .ok { g with flavours := f :: g.flavours }

/-- Sets the user, which may be given once. -/
def setUser (g : Given) (name : String) : Except UsageError Given :=
  if g.user.isSome then .error .conflict else .ok { g with user := some name }

/-- Adds a file, whose name may not be empty. -/
def addFile (g : Given) (p : Path) : Except UsageError Given :=
  if p.text.isEmpty then .error .invalidValue else .ok { g with files := p :: g.files }

/-- Reads arguments of which all are files. -/
def readFiles (g : Given) : List String → Except UsageError Given
  | [] => .ok g
  | arg :: args => do (← g.addFile ⟨arg⟩).readFiles args

/-- Reads arguments from left to right. -/
def read (g : Given) : List String → Except UsageError Given
  | [] => .ok g
  | arg :: args =>
    match Argument.ofString arg with
    | .flavour f => do (← g.addFlavour f).read args
    | .verbose times => { g with verbose := g.verbose + times }.read args
    | .user name => do (← g.setUser name).read args
    | .userNext =>
      match args with
      | [] => .error .invalidValue
      | name :: args =>
        if Argument.isValue name then
          match g.setUser name with
          | .ok g => g.read args
          | .error e => .error (e.blame args)
        else .error (UsageError.invalidValue.blame (name :: args))
    | .file path =>
      match g.addFile path with
      | .ok g => g.read args
      | .error e => .error (e.blame (args.dropWhile Argument.isFile))
    | .filesOnly => g.readFiles args
    | .ends e | .refused e => .error e

end Given

namespace Options

/-- The highest count of `-v`. -/
def maxVerbose : Nat := 255

/-- The options from a command line. A user who is not named there may be named by the
environment. -/
def ofArguments (env : Environment) (args : List String) : Except UsageError Options := do
  let g ← Given.none.read args
  let flavour ←
    match g.flavours with
    | [] => .ok default
    | [f] => .ok f
    | _ => .error .conflict
  pure ⟨flavour, min g.verbose maxVerbose, g.user <|> env.get? "ENUMS_USER", g.files.reverse⟩

/-- The least important level that is logged. -/
def level (o : Options) : Level :=
  match o.verbose with
  | 0 => .warn
  | 1 => .info
  | 2 => .debug
  | _ => .trace

end Options

/-- The login name, as far as the environment knows it. -/
def Environment.loginName (env : Environment) : String :=
  let names := ["USER", "USERNAME"].filterMap env.get?
  (names.find? fun name => !name.isEmpty).getD "unknown"

/-- Carries out a command line in a current directory. -/
def run {m : Type → Type} [Monad m] [Host m] (env : Environment) (cwd : Path) (o : Options) :
    ExceptT Failure m Unit := do
  let job : Job := ⟨o.flavour, o.user.getD env.loginName⟩
  let inputs ← discover o.files cwd
  let _ ← processAll job inputs

end EnumGen
