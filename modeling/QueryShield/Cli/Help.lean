import QueryShield.Cli.Spec
import QueryShield.Text.Shown

/-!
# Help, usage and complaints

The help of a command is its about line, its usage, and up to three sections: the commands
below it, its positional arguments and its options.  Each entry is indented by two spaces and
its help starts in one column for the section: two spaces after the widest entry, where an
option's entry counts four more for the place of the short letter (`-c, ` or four spaces).
The padding is written even when an argument has no help.  After the help come bracketed
notes: the environment variable and its present value, the default values and the possible
values.  Lines are not wrapped.

The usage line of the help names the command, `[OPTIONS]` when some option other than help
and version is optional, the required options, every positional argument (`<X>` when required,
`[X]` when not), and `<COMMAND>` when a command must follow.  A complaint about the arguments
shows the shorter usage of what is required and what was given, or the help's usage when
nothing was given.

A complaint is printed as `error: `, its message, its tips, its usage and a pointer to the
help.
-/

namespace QueryShield
namespace Cli

/-- The width the help is laid out for. -/
def layoutWidth : Nat := 100

/-- A run of spaces. -/
def blanks (n : Nat) : String := String.ofList (List.replicate n ' ')

/-- A name as lists of choices write it: quoted when it holds a blank. -/
def quotedName (s : String) : String :=
  if s.any Char.isWhitespace then Text.shown s else s

/-- Appends a line to a list unless it is there already. -/
def insertNew (acc : List String) (x : String) : List String :=
  if acc.contains x then acc else acc ++ [x]

namespace Level

/-- Whether the usage shows `[OPTIONS]`. -/
def needsOptionsTag (l : Level) : Bool :=
  l.options.any fun a => a.long != some "help" && a.long != some "version" && !a.required

/-- The arguments of a usage line: the required options and the options among `given`, then
every positional argument. -/
def usageArgs (l : Level) (given : List String) : List String :=
  let chosen := ((l.args.filter (·.required)).map (·.id) ++ given).filterMap l.find?
  let opts := ((chosen.filter (!·.positional)).map (·.shown (some true))).foldl insertNew []
  let pos := l.positionals.map fun p => p.shown (some (chosen.any (·.id == p.id)))
  opts ++ pos

/-- The tail of a usage line for a command that must be followed by another. -/
def commandTail (l : Level) : String := if l.hasCommands then " <COMMAND>" else ""

/-- The usage line of the help. -/
def helpUsage (l : Level) : String :=
  l.usageName ++ (if l.needsOptionsTag then " [OPTIONS]" else "") ++
    String.join ((l.usageArgs []).map (" " ++ ·)) ++ l.commandTail

/-- The usage line of a complaint, given the ids of the arguments it names. -/
def usage (l : Level) (given : List String) : String :=
  if given.isEmpty then l.helpUsage
  else l.usageName ++ String.join ((l.usageArgs given).map (" " ++ ·)) ++ l.commandTail

end Level

namespace Arg

/-- The bracketed notes after an argument's help. -/
def notes (a : Arg) (env : List (String × String)) : String :=
  let fromEnv := match a.env with
    | some v => ["[env: " ++ v ++ "=" ++ ((env.lookup v).getD "") ++ "]"]
    | none => []
  let defaults :=
    if a.takesValue && !a.defaults.isEmpty then
      ["[default: " ++ " ".intercalate (a.defaults.map quotedName) ++ "]"]
    else []
  let choices :=
    if a.takesValue && !a.choices.isEmpty then
      ["[possible values: " ++ ", ".intercalate (a.choices.map quotedName) ++ "]"]
    else []
  " ".intercalate (fromEnv ++ defaults ++ choices)

/-- The help of an argument with its notes. -/
def fullHelp (a : Arg) (env : List (String × String)) : String :=
  let n := a.notes env
  if n.isEmpty then a.help else if a.help.isEmpty then n else a.help ++ " " ++ n

/-- The entry of an argument in its section. -/
def entry (a : Arg) : String :=
  if a.positional then a.shown
  else
    let short := match a.short with
      | some c => "-" ++ String.singleton c
      | none => if a.long.isSome then "    " else ""
    let long := match a.long with
      | some l => (if a.short.isSome then ", " else "") ++ "--" ++ l
      | none => ""
    short ++ long ++ (if a.takesValue then " " ++ a.placeholder a.required else "")

/-- The width an entry counts for the column. -/
def entryWidth (a : Arg) : Nat :=
  if a.positional then a.shown.length else a.shown.length + 4

end Arg

/-- Whether help must start on the next line: the entries take more than two fifths of the
width and some help does not fit after them. -/
def helpOnNextLine (longest : Nat) (helps : List String) : Bool :=
  let taken := longest + 4
  layoutWidth ≥ taken && 2 * layoutWidth < 5 * taken && helps.any (·.length > layoutWidth - taken)

/-- One entry with its help: the help after padding to the column, or on the next line. -/
def helpLine (entry : String) (help : String) (longest : Nat) (nextLine : Bool) : String :=
  if nextLine then "  " ++ entry ++ "\n" ++ blanks 10 ++ help
  else "  " ++ entry ++ blanks (longest + 2 - entry.length) ++ help

/-- Orders options by display order and key. -/
def optionBefore (a b : Arg) : Bool :=
  a.order < b.order || (a.order == b.order && decide (a.sortKey ≤ b.sortKey))

namespace Level

/-- The section of the commands below. -/
def commandSection (l : Level) : Option String :=
  if l.commands.isEmpty then none
  else
    let longest := l.commands.foldl (fun m (n, _) => max m n.length) 2
    let next := helpOnNextLine longest (l.commands.map (·.2))
    some ("Commands:\n" ++ "\n".intercalate (l.commands.map fun (n, about) => helpLine n about longest next))

/-- A section of arguments. -/
def argSection (title : String) (args : List Arg) (env : List (String × String)) : Option String :=
  if args.isEmpty then none
  else
    let longest := args.foldl (fun m a => max m a.entryWidth) 2
    let next := helpOnNextLine longest (args.map (·.fullHelp env))
    some (title ++ ":\n" ++ "\n".intercalate (args.map fun a =>
      helpLine a.entry (a.fullHelp env) longest next))

/-- Removes the blanks at the end of a text. -/
def trimEnd (s : String) : String := String.ofList (s.toList.reverse.dropWhile Char.isWhitespace).reverse

/-- The help of a command. -/
def helpText (l : Level) (env : List (String × String)) : String :=
  let sections := [l.commandSection, argSection "Arguments" l.positionals env,
    argSection "Options" (l.options.mergeSort optionBefore) env].filterMap id
  let head := if l.about.isEmpty then "" else l.about ++ "\n\n"
  trimEnd (head ++ "Usage: " ++ l.helpUsage ++ "\n\n" ++ "\n\n".intercalate sections) ++ "\n"

end Level

/-- A complaint about the arguments. -/
structure Complaint where
  message : String
  tips : List String := []
  usage : Option String := none
  pointsToHelp : Bool := true
deriving DecidableEq, Repr

namespace Complaint

/-- The complaint as printed. -/
def text (c : Complaint) : String :=
  "error: " ++ c.message ++
    (if c.tips.isEmpty then "" else "\n" ++ String.join (c.tips.map ("\n  tip: " ++ ·))) ++
    (match c.usage with
      | some u => "\n\nUsage: " ++ u
      | none => "") ++
    (if c.pointsToHelp then "\n\nFor more information, try '--help'.\n" else "\n")

/-- A list of names after a message. -/
def namesLine (what : String) (names : List String) : String :=
  if names.isEmpty then "" else "\n  [" ++ what ++ ": " ++ ", ".intercalate (names.map quotedName) ++ "]"

end Complaint
end Cli
end QueryShield
