import EnumGen.Report
import Std.Time.Zoned

/-!
# The program

The command line on the machine that the program runs on: its files, its clock and its terminal.
-/

namespace EnumGen

/-- Actions on the real machine, which log records up to a level. -/
abbrev Console := ReaderT (Option Level) IO

/-- A failed operation by the number that the operating system gives it, which may come with its
sign changed. -/
def FileError.ofCode (code : UInt32) (details : String) : FileError :=
  match code.toInt32.toInt.natAbs with
  | 2 => .notFound
  | 20 => .notDirectory
  | 21 => .isDirectory
  | 28 => .noSpace
  | 36 => .nameTooLong
  | 40 => .tooManyLinks
  | n => .other (details ++ " (os error " ++ toString n ++ ")")

/-- A failed operation. -/
def FileError.ofIO (e : IO.Error) : FileError :=
  match e with
  | .otherError c d | .resourceBusy c d | .resourceVanished c d | .unsupportedOperation c d
  | .hardwareFault c d | .unsatisfiedConstraints c d | .illegalOperation c d | .protocolError c d
  | .timeExpired c d => .ofCode c d
  | .interrupted _ c d | .noFileOrDirectory _ c d => .ofCode c d
  | .alreadyExists _ c d | .invalidArgument _ c d | .permissionDenied _ c d
  | .resourceExhausted _ c d | .inappropriateType _ c d | .noSuchThing _ c d => .ofCode c d
  | .unexpectedEof | .userError _ => .other (toString e)

namespace Console

/-- Carries out an operation on a path that the operating system can be given. -/
def attempt {α : Type} (p : Path) (act : IO α) : Console (Except FileError α) := do
  if p.text.toList.contains '\x00' then return .error .nullInPath
  match ← act.toBaseIO with
  | .ok a => pure (.ok a)
  | .error e => pure (.error (.ofIO e))

/-- Carries out a test on a path, which fails if the path leads nowhere. -/
def test (p : Path) (act : IO Bool) : Console Bool := do
  match ← attempt p act with
  | .ok b => pure b
  | .error _ => pure false

/-- A calendar date with a time of day. -/
def stampOf (t : Std.Time.PlainDateTime) : Code.Stamp :=
  ⟨t.date.year.toInt, t.date.month.val.toNat, t.date.day.val.toNat, t.time.hour.val.toNat,
    t.time.minute.val.toNat, t.time.second.val.toNat⟩

/-- The time of a log record. -/
def logTime : IO String := do
  let now := Std.Time.DateTime.ofTimestampWithZone (← Std.Time.Timestamp.now) .UTC
  let s := stampOf now.toPlainDateTime
  let two := Code.Stamp.pad '0' 2
  pure (Code.Stamp.yearText s.year ++ "-" ++ two s.month ++ "-" ++ two s.day ++ "T" ++
    two s.hour ++ ":" ++ two s.minute ++ ":" ++ two s.second ++ "Z")

end Console

instance : Host Console where
  read p := Console.attempt p (IO.FS.readBinFile p.text)
  write p content := Console.attempt p do
    let h ← IO.FS.Handle.mk p.text .write
    h.write content
    h.flush
  remove p := do
    let _ ← Console.attempt p (IO.FS.removeFile p.text)
  isDir p := Console.test p do (← IO.FS.realPath p.text).isDir
  isPresent p := Console.test p do
    if p.text.isEmpty then return false
    let _ ← ((← IO.currentDir) / p.text).symlinkMetadata
    pure true
  list p := Console.attempt p do
    (← (← IO.FS.realPath p.text).readDir).toList.mapM fun e => do
      pure ⟨e.fileName, (← e.path.symlinkMetadata).type == .dir⟩
  now := do pure (Console.stampOf (← Std.Time.PlainDateTime.now))
  log e := do
    if isLogged (← read) e.level then
      IO.eprintln (e.line (← Console.logTime))

/-- The variables of the environment that matter. -/
def Environment.current : IO Environment := do
  let names := ["ENUMS_USER", "USER", "USERNAME", "RUST_LOG", "NO_COLOR"]
  let found ← names.filterMapM fun n => do pure ((← IO.getEnv n).map (n, ·))
  pure ⟨found⟩

/-- How the program is called. -/
def usageText : String :=
  "Usage: enums [--fmt-scanner | --sql-scanner | --json | --xml] [--user <USER>] [-v]... [FILES]..."

end EnumGen

open EnumGen in
/-- Generates code from the definition files that the arguments name. -/
def main (args : List String) : IO UInt32 := do
  let env ← Environment.current
  match Options.ofArguments env args with
  | .error e =>
    match e with
    | .version => IO.println versionText
    | .help => IO.println usageText
    | _ => IO.eprintln usageText
    pure e.exitCode.toUInt32
  | .ok o =>
    let cwd : Path := ⟨(← IO.currentDir).toString⟩
    match ← ((run env cwd o : ExceptT Failure Console Unit).run).run (logThreshold env o) with
    | .ok () => pure 0
    | .error f =>
      IO.eprintln (f.line env)
      pure 1
