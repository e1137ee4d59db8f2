import EnumGen.CommandLine

/-!
# What a run prints

The log goes to standard error as far as its level is wanted, one record after the other, and a
failure follows it in colour. The exit code tells how the run ended.
-/

namespace EnumGen

/-- The level with the given name in upper or lower case; `off` stands for no level at all. -/
def threshold? (name : String) : Option (Option Level) :=
  let name := name.map Char.toUpper
  if name = "OFF" then some none else (Level.all.find? (·.name == name)).map some

/-- The least important level that is logged: the one from the environment, if it names one, and
the one from the command line otherwise. -/
def logThreshold (env : Environment) (o : Options) : Option Level :=
  ((env.get? "RUST_LOG").bind threshold?).getD (some o.level)

/-- Records of the level are logged. -/
def isLogged (threshold : Option Level) (level : Level) : Bool :=
  match threshold with
  | none => false
  | some least => level.rank ≤ least.rank

/-- A message whose later lines are indented. -/
def indentLines (s : List Char) : List Char :=
  s.flatMap fun c => if c = '\n' then "\n    ".toList else [c]

/-- A record as it is printed. -/
def Event.line (e : Event) (time : String) : String :=
  let level := e.level.name
  "[" ++ time ++ " " ++ level ++ String.ofList (List.replicate (5 - level.length) ' ') ++ " " ++
    e.origin ++ "] " ++ String.ofList (indentLines e.message.toList)

/-- The name of the program in bold red, or in bold where colours are not wanted. -/
def programLabel (env : Environment) : String :=
  let plain := ((env.get? "NO_COLOR").getD "") != ""
  (if plain then "\x1b[m" else "\x1b[38;5;9m") ++ "\x1b[1menums:\x1b[0m"

/-- A failure as it is printed. -/
def Failure.line (f : Failure) (env : Environment) : String :=
  programLabel env ++ " " ++ f.message

/-- What a run leaves on the terminal. -/
structure Report where
  code : Nat
  stdout : List String
  stderr : List String
  deriving DecidableEq, Repr

/-- The report on a run from its log and its outcome. -/
def Report.ofRun (env : Environment) (o : Options) (time : String) (log : List Event)
    (outcome : Except Failure Unit) : Report :=
  let threshold := logThreshold env o
  let logged := (log.filter fun e => isLogged threshold e.level).map (·.line time)
  match outcome with
  | .ok () => ⟨0, [], logged⟩
  | .error f => ⟨1, [], logged ++ [f.line env]⟩

/-- The report on a command line that is not carried out. What is printed on a usage error is not
part of the report. -/
def Report.ofUsageError (e : UsageError) : Report :=
  ⟨e.exitCode, if e = .version then [versionText] else [], []⟩

end EnumGen
