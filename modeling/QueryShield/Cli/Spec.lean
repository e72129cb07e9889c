/-!
# Describing a command line

A command line is described by its arguments.  An argument is an option, named by a short
letter (`-c`), a long name (`--config`) or both, or a positional value.  What it does when
given is its `Action`: a switch, a value that may be given once, a value that may be given
again and again, or the two built-in actions that print the help or the version.

Options are listed in the help by their display order (the order they were declared in, each
command counting from zero; the built-in options come last) and then by a key: the short
letter in lower case followed by `0` for a lower-case letter and `1` for an upper-case one, or
else the long name.  Options inherited from the program keep the program's order.

A `Level` is one command as the reader sees it: its name, its name as the usage writes it, its
about line, its arguments in the order they are looked up, and for the program itself the
commands below it.  A `Program` has arguments of its own, which its commands inherit, and
commands.
-/

namespace QueryShield
namespace Cli

/-- What an argument does when given. -/
inductive Action where
  /-- A switch. -/
  | flag
  /-- One value, given at most once. -/
  | single
  /-- One value each time, gathered. -/
  | repeated
  /-- Prints the help. -/
  | help
  /-- Prints the version. -/
  | version
deriving DecidableEq, Repr

/-- An argument of a command. -/
structure Arg where
  id : String
  short : Option Char := none
  long : Option String := none
  valueName : String := ""
  help : String := ""
  action : Action
  positional : Bool := false
  required : Bool := false
  choices : List String := []
  defaults : List String := []
  env : Option String := none
  global : Bool := false
  nonEmpty : Bool := false
  order : Nat := 999
deriving Repr

namespace Arg

/-- Whether the argument takes values. -/
def takesValue (a : Arg) : Bool :=
  a.action == .single || a.action == .repeated

/-- Whether a positional argument takes several values. -/
def isMultiple (a : Arg) : Bool := a.action == .repeated

/-- The placeholder of the values: `<NAME>`, or `[NAME]` for a positional value that may be
left out, with `...` after a positional that takes several. -/
def placeholder (a : Arg) (required : Bool) : String :=
  if a.positional then
    (if required then "<" ++ a.valueName ++ ">" else "[" ++ a.valueName ++ "]") ++
      (if a.isMultiple then "..." else "")
  else "<" ++ a.valueName ++ ">"

/-- The argument as usage and messages write it: `--name <NAME>`, `-c <CONFIG>` for a short
option, `<TEXT>` for a positional one.  A long name is preferred to a short letter. -/
def shown (a : Arg) (required : Option Bool := none) : String :=
  let req := required.getD a.required
  let name := match a.long, a.short with
    | some l, _ => "--" ++ l
    | none, some c => "-" ++ String.singleton c
    | none, none => ""
  if a.positional then a.placeholder req
  else if a.takesValue then name ++ " " ++ a.placeholder req
  else name

/-- The key that orders options of the same display order. -/
def sortKey (a : Arg) : String :=
  match a.short, a.long with
  | some c, _ => String.singleton c.toLower ++ (if c.isLower then "0" else "1")
  | none, some l => l
  | none, none => "\x7b" ++ a.id

end Arg

/-- One command as the reader sees it. -/
structure Level where
  name : String
  usageName : String
  about : String := ""
  args : List Arg
  commands : List (String × String) := []
  deriving Repr

namespace Level

/-- The argument of an id. -/
def find? (l : Level) (id : String) : Option Arg := l.args.find? (·.id == id)

/-- The option of a long name. -/
def findLong? (l : Level) (name : String) : Option Arg :=
  l.args.find? fun a => !a.positional && a.long == some name

/-- The option of a short letter. -/
def findShort? (l : Level) (c : Char) : Option Arg :=
  l.args.find? fun a => !a.positional && a.short == some c

/-- The positional arguments, in order. -/
def positionals (l : Level) : List Arg := l.args.filter (·.positional)

/-- The options, in lookup order. -/
def options (l : Level) : List Arg := l.args.filter (!·.positional)

/-- Whether the command has commands below it. -/
def hasCommands (l : Level) : Bool := !l.commands.isEmpty

/-- Whether the command has a help option. -/
def hasHelp (l : Level) : Bool := l.args.any (·.action == .help)

/-- The long names of the options. -/
def longNames (l : Level) : List String := l.options.filterMap (·.long)

end Level

/-- A command of a program, with its own arguments. -/
structure Command where
  name : String
  about : String
  args : List Arg
  deriving Repr

/-- A program: its arguments, which its commands inherit, and its commands. -/
structure Program where
  name : String
  about : String
  version : String
  args : List Arg
  commands : List Command
  deriving Repr
end Cli
end QueryShield
