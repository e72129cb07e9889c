import QueryShield.Cli.Program

/-!
# The program

The program reads its command line and the `SQLWARD_CONFIG` variable, reads the settings file
the command line names, runs the tool, prints what the run printed and ends with its status.

Everything it does is decided by `Cli.run`; this layer only gathers what a run needs from the
system.  A file that cannot be read is reported with the system's wording of its error number.
The clock is the system's in UTC, taken as the boot time in `/proc/stat` plus the time since
boot in `/proc/uptime`; where these cannot be read it is the start of 1970.
-/

namespace QueryShield
namespace Host

/-- The error number an error of the system carries, when it carries one. -/
def errorNumber? : IO.Error → Option UInt32
  | .alreadyExists _ n _ | .otherError n _ | .resourceBusy n _ | .resourceVanished n _
  | .unsupportedOperation n _ | .hardwareFault n _ | .unsatisfiedConstraints n _
  | .illegalOperation n _ | .protocolError n _ | .timeExpired n _ | .interrupted _ n _
  | .noFileOrDirectory _ n _ | .invalidArgument _ n _ | .permissionDenied _ n _
  | .resourceExhausted _ n _ | .inappropriateType _ n _ | .noSuchThing _ n _ => some n
  | .unexpectedEof | .userError _ => none

/-- An error number as the system counts it; some calls report it negated. -/
def errorCode (n : UInt32) : Nat :=
  if n.toNat < Nat.pow 2 31 then n.toNat else Nat.pow 2 32 - n.toNat

/-- The system's wording of the error numbers reading a file can meet. -/
def errorWording (n : Nat) : Option String :=
  match n with
  | 1 => some "Operation not permitted"
  | 2 => some "No such file or directory"
  | 5 => some "Input/output error"
  | 13 => some "Permission denied"
  | 20 => some "Not a directory"
  | 21 => some "Is a directory"
  | 24 => some "Too many open files"
  | 36 => some "File name too long"
  | 40 => some "Too many levels of symbolic links"
  | _ => none

/-- Why a file could not be read, as the system words it: the wording and the error number. -/
def reason (e : IO.Error) : String :=
  match errorNumber? e with
  | some n =>
    let code := errorCode n
    ((errorWording code).getD "Unknown error") ++ " (os error " ++ toString code ++ ")"
  | none => toString e

/-- The contents of a file as text, or why it cannot be read. -/
def readText (path : String) : IO (Except String String) := do
  try
    let bytes ← IO.FS.readBinFile path
    match String.fromUTF8? bytes with
    | some text => pure (.ok text)
    | none => pure (.error "stream did not contain valid UTF-8")
  catch e => pure (.error (reason e))

/-- The reader of a run: the settings file is read before the run, and nothing else is seen. -/
def reader (env : Environment) (args : List String) : IO Cli.Reader := do
  match Cli.settingsPath? env args with
  | none => pure fun _ => .error "No such file or directory (os error 2)"
  | some path =>
    let result ← readText path
    pure fun p => if p == path then result else .error "No such file or directory (os error 2)"

/-- The whole seconds of the first number of a text such as `11761.36 46489.84`. -/
def leadingSeconds (text : String) : Option Nat :=
  ((text.splitOn " ").head?.bind fun w => (w.splitOn ".").head?).bind String.toNat?

/-- The system's boot time in seconds since 1970, from the line of `/proc/stat` naming it. -/
def bootTime (stat : String) : Option Nat :=
  (stat.splitOn "\n").findSome? fun line =>
    match line.splitOn " " with
    | ["btime", n] => n.toNat?
    | _ => none

/-- The system's clock in UTC, or the start of 1970 where it cannot be read. -/
def clock : IO Stamp := do
  let stat ← readText "/proc/stat"
  let uptime ← readText "/proc/uptime"
  let secs := match stat, uptime with
    | .ok s, .ok u => (bootTime s).getD 0 + (leadingSeconds u).getD 0
    | _, _ => 0
  pure (Stamp.ofUnixTime secs 0)

/-- Runs the tool on the program's command line and prints what it printed. -/
def start (args : List String) : IO UInt32 := do
  let env : Environment := match ← IO.getEnv "SQLWARD_CONFIG" with
    | some v => [("SQLWARD_CONFIG", v)]
    | none => []
  let read ← reader env args
  let now ← clock
  let outcome := Cli.run now env read args
  let stdout ← IO.getStdout
  stdout.putStr outcome.out
  stdout.flush
  let stderr ← IO.getStderr
  stderr.putStr outcome.err
  stderr.flush
  pure outcome.status.toUInt32

end Host
end QueryShield

/-- The program's entry: runs the tool on its command line. -/
def main (args : List String) : IO UInt32 := QueryShield.Host.start args
