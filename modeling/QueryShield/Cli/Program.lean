import QueryShield.Cli.Parse
import QueryShield.Cli.Interface
import QueryShield.Cli.Commands
import QueryShield.Settings.FromYaml
import QueryShield.Settings.FromToml

/-!
# Running the tool

A run reads the command line, loads the settings file if one is named, and runs the command.
It ends with a status: `0` on success, `1` when the command failed or `scan` flagged its text,
`2` when the command line is wrong.  Help and the version go to standard output; complaints
about the command line and the report of a failed command go to standard error.

The settings file is TOML when its extension is exactly `toml`, and YAML otherwise.  A file
that is missing, unreadable, not valid for its format or breaking a rule of the settings ends
the run before the command; the report names the file.

A run reads files through a reader: the contents of a path, or the system's reason why not.
A set of files given as names and contents is read by looking a path up after dropping `.`
parts, so `./c.yaml` is `c.yaml`, and anything else is missing.
-/

namespace QueryShield
namespace Cli

/-- How a run ends: its status and what it printed. -/
structure Outcome where
  status : Nat
  out : String
  err : String
deriving DecidableEq, Repr

/-- The files a run can see: names and contents. -/
abbrev Files := List (String × String)

/-- How a run reads a file: its contents, or the system's reason why not. -/
abbrev Reader := String → Except String String

/-- The parts of a path, without empty and `.` parts. -/
def pathParts (path : String) : List String :=
  (path.splitOn "/").filter fun p => !p.isEmpty && p != "."

/-- The extension of a path's last part: what follows its last dot, when that dot is not the
part's first character. -/
def extension? (path : String) : Option String :=
  match (pathParts path).getLast? with
  | none => none
  | some ".." => none
  | some name =>
    match (name.splitOn ".").reverse with
    | ext :: before :: more =>
      if more.isEmpty && before.isEmpty then none else some ext
    | _ => none

/-- Reads a file, or the system's reason why not. -/
def contentsIn (files : Files) (path : String) : Except String String :=
  let notFound := "No such file or directory (os error 2)"
  if path.isEmpty || path.startsWith "/" then .error notFound
  else
    match pathParts path with
    | [] => .error "Is a directory (os error 21)"
    | [".."] => .error "Is a directory (os error 21)"
    | [name] =>
      match files.lookup name with
      | some content => if path.endsWith "/" then .error "Not a directory (os error 20)" else .ok content
      | none => .error notFound
    | name :: _ => if (files.lookup name).isSome then .error "Not a directory (os error 20)" else .error notFound

/-- Loads the settings from a file. -/
def loadSettings (read : Reader) (path : String) : Except Failure Settings :=
  if extension? path == some "toml" then do
    let content ← (read path).mapError fun r => ⟨"Failed to read config file: " ++ path, [r]⟩
    let settings ← (Settings.fromToml content).mapError fun r => ⟨"Invalid TOML in " ++ path, [r]⟩
    (settings.validate).mapError fun e => ⟨"Invalid configuration in " ++ path, [e.message]⟩
    pure settings
  else
    let fail (e : SettingsError) : Failure :=
      ⟨"Failed to load config file: " ++ path, e.chain⟩
    match read path with
    | .error r => .error (fail (.io r))
    | .ok content => (Settings.fromYaml content).mapError fail

/-- A successful run printing a text. -/
def printed (text : String) : Outcome := ⟨0, text, ""⟩

/-- A failed command. -/
def failed (f : Failure) : Outcome := ⟨1, "", f.report⟩

/-- Runs a command with its settings. -/
def execute (clock : Stamp) (env : Environment) (p : Parsed) (settings : Settings) : Outcome :=
  match p.command with
  | "scan" =>
    let families := (p.values "families").filterMap familyOfArg?
    let (verdict, out) := scan ((p.value? "text").getD "") families (p.flag "json")
    ⟨if verdict.isFlagged then 1 else 0, out, ""⟩
  | "parameterize" =>
    match parameterize clock (p.values "fragments") (p.flag "inline") (p.flag "json") with
    | .ok out => printed out
    | .error f => failed f
  | "cache-key" =>
    match (p.value? "category").bind Category.ofName? with
    | none => failed ⟨"a category is required", []⟩
    | some category =>
      match cacheKey settings category ((p.value? "name").getD "") (p.values "params") (p.values "set_params") with
      | .ok key => printed (key.render ++ "\n")
      | .error f => failed f
  | "check-config" =>
    match p.value? "config" with
    | some path => printed (checkText path settings)
    | none => failed ⟨"check-config needs --config <file> or SQLWARD_CONFIG", []⟩
  | "probe" => failed (probe settings env)
  | other => failed ⟨"unknown command " ++ other, []⟩

/-- Runs the tool on a command line, with an environment and a way to read files. -/
def run (clock : Stamp) (env : Environment) (read : Reader) (words : List String) : Outcome :=
  match tool.read env words with
  | .error (.help text) => printed text
  | .error (.version text) => printed text
  | .error (.helpInstead text) => ⟨2, "", text⟩
  | .error (.complaint c) => ⟨2, "", c.text⟩
  | .ok p =>
    let settings : Except Failure Settings := match p.value? "config" with
      | none => .ok {}
      | some path => loadSettings read path
    match settings with
    | .error f => failed f
    | .ok s => execute clock env p s

/-- The settings file a command line names, if it reads; a program loads it before it runs. -/
def settingsPath? (env : Environment) (words : List String) : Option String :=
  match tool.read env words with
  | .ok p => p.value? "config"
  | .error _ => none

end Cli
end QueryShield
