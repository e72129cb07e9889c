import QueryShield.Cli.Help
import QueryShield.Cli.Similar

/-!
# Reading the command line

The words are read one at a time, as a state (`Reading`) and a step, first for the program and
then, from the word that names a command, for that command.

* `--` makes every later word a positional value.
* `--name` or `--name=value` is a long option, `-x` a short one; short switches may be run
  together (`-hV`), and a short option's value may follow it directly (`-cfile`, `-c=file`).
* An option that takes a value and has none attached takes the next word, unless that word is
  itself an option.  Its value is checked when the next option is met, or at the end.
* Any other word is the next positional value; at the program's level, where there are none,
  it must name a command.

When the words are read, an option still waiting for its value is an error; then the options
not given take their value from the environment, then their defaults; then the required
arguments are checked.  A command's words are read and checked before the program's are
finished.  An option of the program that a command inherits keeps the value given last, unless
the program's was given on the command line and the command's only came from the environment.

Reading stops early to print the help or the version, or with a complaint.  When nothing at
all was given, the help is printed in place of a complaint.
-/

namespace QueryShield
namespace Cli

/-- Where a value came from, from the weakest. -/
inductive Source where
  | fallback
  | environment
  | commandLine
deriving DecidableEq, Repr

/-- The strength of a source. -/
def Source.rank : Source → Nat
  | .fallback => 0
  | .environment => 1
  | .commandLine => 2

/-- The values one argument got. -/
structure Given where
  id : String
  values : List String
  source : Source
deriving DecidableEq, Repr

/-- Why reading stops before the program runs. -/
inductive Stop where
  /-- The help was asked for. -/
  | help (text : String)
  /-- The version was asked for. -/
  | version (text : String)
  /-- Nothing was given: the help, printed as a complaint. -/
  | helpInstead (text : String)
  /-- The words are wrong. -/
  | complaint (c : Complaint)
deriving DecidableEq, Repr

/-- The state of reading one command's words. -/
structure Reading where
  given : List Given := []
  /-- The option whose value is being read, and its value once read. -/
  pending : Option (String × List String) := none
  /-- How many positional values were read. -/
  position : Nat := 0
  /-- Whether `--` was read. -/
  trailing : Bool := false
deriving DecidableEq, Repr

namespace Reading

/-- Whether an argument was given, not counting defaults. -/
def has (r : Reading) (id : String) : Bool :=
  r.given.any fun g => g.id == id && g.source != .fallback

/-- The arguments given, not counting defaults, in the order they came. -/
def explicit (r : Reading) : List String :=
  (r.given.filter (·.source != .fallback)).map (·.id)

/-- Whether an option is waiting for its value. -/
def awaiting (r : Reading) : Bool :=
  match r.pending with
  | some (_, []) => true
  | _ => false

/-- Adds values to an argument, after those it has. -/
def add (r : Reading) (id : String) (values : List String) (source : Source) : Reading :=
  if r.given.any (·.id == id) then
    { r with given := r.given.map fun g => if g.id == id then { g with values := g.values ++ values } else g }
  else { r with given := r.given ++ [⟨id, values, source⟩] }

end Reading

/-- What a reading step knows of the command it reads. -/
structure Scope where
  level : Level
  /-- The commands below, for suggesting an option of one of them. -/
  below : List Level := []
  env : List (String × String)
  versionText : String

/-! ## Complaints -/

/-- A value that is missing or not one of the choices. -/
def badValue (a : Arg) (v : String) : Complaint :=
  { message := (if v.isEmpty then "a value is required for '" ++ a.shown ++ "' but none was supplied"
      else "invalid value '" ++ v ++ "' for '" ++ a.shown ++ "'") ++
      Complaint.namesLine "possible values" a.choices,
    tips := match closestName? v a.choices with
      | some s => ["a similar value exists: '" ++ s ++ "'"]
      | none => [] }

/-- An argument that may be given once, given again. -/
def givenTwice (l : Level) (a : Arg) : Complaint :=
  { message := "the argument '" ++ a.shown ++ "' cannot be used multiple times", usage := some (l.usage []) }

/-- A word that names no argument. -/
def unexpected (word : String) (tips : List String) (usage : String) : Complaint :=
  { message := "unexpected argument '" ++ word ++ "' found", tips, usage := some usage }

/-- The tip for a word that looks like an option but was meant as a value. -/
def valueTip (word : String) : String := "to pass '" ++ word ++ "' as a value, use '-- " ++ word ++ "'"

/-! ## Steps -/

/-- Checks one value of an argument. -/
def checkValue (a : Arg) (v : String) : Except Stop Unit :=
  if !a.choices.isEmpty && !a.choices.contains v then throw (.complaint (badValue a v))
  else if a.nonEmpty && v.isEmpty then throw (.complaint (badValue a v))
  else pure ()

/-- Records an argument given with its values. -/
def apply (s : Scope) (r : Reading) (a : Arg) (values : List String) (source : Source) :
    Except Stop Reading := do
  match a.action with
  | .help => throw (.help (s.level.helpText s.env))
  | .version => throw (.version s.versionText)
  | .flag =>
    if r.given.any (·.id == a.id) then throw (.complaint (givenTwice s.level a))
    pure (r.add a.id ["true"] source)
  | .single | .repeated =>
    if source == .commandLine && values.isEmpty then throw (.complaint (badValue a ""))
    if a.action == .single && r.given.any (·.id == a.id) then throw (.complaint (givenTwice s.level a))
    values.forM (checkValue a)
    pure (r.add a.id values source)

/-- Records the option whose value was being read. -/
def settle (s : Scope) (r : Reading) : Except Stop Reading :=
  match r.pending with
  | none => pure r
  | some (id, values) =>
    let r := { r with pending := none }
    match s.level.find? id with
    | some a => apply s r a values .commandLine
    | none => pure r

/-- Records an argument, after the option whose value was being read. -/
def react (s : Scope) (r : Reading) (a : Arg) (values : List String) : Except Stop Reading := do
  let r ← settle s r
  apply s r a values .commandLine

/-- Records the option whose value was being read, if it can be, before a complaint. -/
def settleQuietly (s : Scope) (r : Reading) : Reading :=
  match settle s r with
  | .ok r => r
  | .error _ => { r with pending := none }

/-- The arguments given that a usage line should name: those not required. -/
def optionalGiven (l : Level) (r : Reading) : List String :=
  r.explicit.filter fun id => match l.find? id with
    | some a => !a.required
    | none => true

/-- The complaint about an unknown long option: the nearest long name of this command, or
else of the command named soonest among the words left. -/
def unknownLong (s : Scope) (r : Reading) (name : String) (rest : List String) : Complaint :=
  let r := settleQuietly s r
  let fromBelow := s.below.filterMap fun b =>
    match closestName? name b.longNames, rest.findIdx? (· == b.name) with
    | some c, some i => some (i, c, b.name)
    | _, _ => none
  let nearestBelow := fromBelow.foldl (fun best x => match best with
    | some b => if x.1 < b.1 then some x else some b
    | none => some x) none
  let word := "--" ++ name
  match closestName? name s.level.longNames with
  | some c =>
    let used := match s.level.findLong? c with
      | some a => if a.required || r.has a.id then optionalGiven s.level r else optionalGiven s.level r ++ [a.id]
      | none => optionalGiven s.level r
    unexpected word ["a similar argument exists: '--" ++ c ++ "'"] (s.level.usage used)
  | none =>
    let tips := (if !r.trailing && !s.level.positionals.isEmpty then [valueTip word] else []) ++
      (match nearestBelow with
        | some (_, c, cmd) => ["'" ++ cmd ++ " --" ++ c ++ "' exists"]
        | none => [])
    unexpected word tips (s.level.usage (optionalGiven s.level r))

/-- The complaint about a word that is neither an option nor a value the command takes. -/
def strayWord (s : Scope) (r : Reading) (word : String) : Complaint :=
  let names := s.level.commands.map (·.1)
  if r.trailing && names.contains word then
    unexpected "--" ["subcommand '" ++ word ++ "' exists; to use it, remove the '--' before it"]
      s.level.helpUsage
  else if s.level.hasCommands then
    match similarNames word names with
    | [] => { message := "unrecognized subcommand '" ++ word ++ "'", usage := some s.level.helpUsage }
    | [one] =>
      { message := "unrecognized subcommand '" ++ word ++ "'",
        tips := ["a similar subcommand exists: '" ++ one ++ "'"], usage := some s.level.helpUsage }
    | many =>
      { message := "unrecognized subcommand '" ++ word ++ "'",
        tips := ["some similar subcommands exist: " ++ ", ".intercalate (many.map fun n => "'" ++ n ++ "'")],
        usage := some s.level.helpUsage }
  else unexpected word [] s.level.helpUsage

/-- Reads a run of short options after a dash. -/
def readShorts (s : Scope) (r : Reading) : List Char → Except Stop Reading
  | [] => pure r
  | c :: more =>
    match s.level.findShort? c with
    | none =>
      let r := settleQuietly s r
      let word := "-" ++ String.singleton c
      throw (.complaint (unexpected word
        (if !r.trailing && !s.level.positionals.isEmpty then [valueTip word] else []) s.level.helpUsage))
    | some a =>
      if !a.takesValue then do
        let r ← react s r a []
        readShorts s r more
      else if more.isEmpty then do
        let r ← settle s r
        pure { r with pending := some (a.id, []) }
      else
        let v := match more with
          | '=' :: v => v
          | v => v
        react s r a [String.ofList v]

/-- Reads a long option. -/
def readLong (s : Scope) (r : Reading) (body : String) (rest : List String) : Except Stop Reading :=
  let (name, value) := match body.splitOn "=" with
    | [] => (body, none)
    | n :: [] => (n, none)
    | n :: vs => (n, some ("=".intercalate vs))
  match s.level.findLong? name with
  | none => throw (.complaint (unknownLong s r name rest))
  | some a =>
    if a.takesValue then
      match value with
      | some v => react s r a [v]
      | none => do
        let r ← settle s r
        pure { r with pending := some (a.id, []) }
    else
      match value with
      | some v =>
        let used := optionalGiven s.level r ++ [a.id]
        throw (.complaint { message := "unexpected value '" ++ v ++ "' for '" ++ a.shown ++
          "' found; no more were expected", usage := some (s.level.usage used) })
      | none => react s r a []

/-- Reads one positional value. -/
def readValue (s : Scope) (r : Reading) (word : String) : Except Stop Reading :=
  match s.level.positionals[r.position]? with
  | none => throw (.complaint (strayWord s (settleQuietly s r) word))
  | some a => do
    let r ← settle s r
    let r := r.add a.id [word] .commandLine
    pure (if a.isMultiple then r else { r with position := r.position + 1 })

/-- Reads the words of a command; stops at a word naming a command below, with the words
after it. -/
def readWords (s : Scope) (r : Reading) : List String → Except Stop (Reading × Option (String × List String))
  | [] => pure (r, none)
  | w :: rest =>
    if !r.trailing && !r.awaiting && (s.level.commands.map (·.1)).contains w then pure (r, some (w, rest))
    else if !r.trailing && w == "--" then readWords s { r with trailing := true } rest
    else if !r.trailing && w.startsWith "--" then do
      let r ← readLong s r (w.drop 2).toString rest
      readWords s r rest
    else if !r.trailing && w.startsWith "-" && w.length > 1 then do
      let r ← readShorts s r (w.drop 1).toString.toList
      readWords s r rest
    else
      match r.pending with
      | some (id, []) => readWords s { r with pending := some (id, [w]) } rest
      | _ => do
        let r ← readValue s r w
        readWords s r rest

/-- Takes values from the environment for the options not given. -/
def fromEnvironment (s : Scope) (r : Reading) : Except Stop Reading :=
  s.level.args.foldlM (fun r a =>
    match a.env with
    | some var =>
      match s.env.lookup var with
      | some v => if r.given.any (·.id == a.id) then pure r else apply s r a [v] .environment
      | none => pure r
    | none => pure r) r

/-- Gives the arguments not given their defaults. -/
def withDefaults (l : Level) (r : Reading) : Reading :=
  l.args.foldl (fun r a =>
    if a.defaults.isEmpty || r.given.any (·.id == a.id) then r else r.add a.id a.defaults .fallback) r

/-- Checks that the required arguments were given. -/
def checkRequired (s : Scope) (r : Reading) : Except Stop Unit := do
  let missing := s.level.args.filter fun a => a.required && !r.has a.id
  if missing.isEmpty then return
  let opts := ((missing.filter (!·.positional)).map (·.shown (some true))).foldl insertNew []
  let pos := ((missing.filter (·.positional)).map (·.shown (some true))).foldl insertNew []
  let message := "the following required arguments were not provided:" ++
    String.join ((opts ++ pos).map ("\n  " ++ ·))
  throw (.complaint { message, usage := some (s.level.usage (r.explicit ++ missing.map (·.id))) })

/-- Finishes reading a command: the waiting option, the environment, the defaults, the
required arguments. -/
def finish (s : Scope) (r : Reading) : Except Stop Reading := do
  let r ← settle s r
  let r ← fromEnvironment s r
  let r := withDefaults s.level r
  checkRequired s r
  pure r

/-- Why the program cannot run without a command: the help when nothing was given, else a
complaint. -/
def missingCommand (s : Scope) (r : Reading) : Stop :=
  if r.explicit.isEmpty then .helpInstead (s.level.helpText s.env)
  else
    let message := "'" ++ s.level.usageName ++ "' requires a subcommand but one was not provided" ++
      Complaint.namesLine "subcommands" (s.level.commands.map (·.1))
    .complaint { message, usage := some s.level.helpUsage }

/-- The value an inherited option keeps: the command's, unless the program's came from a
stronger source. -/
def inherit (outer inner : List Given) (id : String) : Option Given :=
  match outer.find? (·.id == id), inner.find? (·.id == id) with
  | some o, some i => if o.source.rank > i.source.rank then some o else some i
  | some o, none => some o
  | none, some i => some i
  | none, none => none

/-- The built-in option that prints the help. -/
def helpArg : Arg :=
  { id := "help", short := some 'h', long := some "help", help := "Print help", action := .help }

/-- The built-in option that prints the version. -/
def versionArg : Arg :=
  { id := "version", short := some 'V', long := some "version", help := "Print version", action := .version }

/-- What the built-in `help` command does. -/
def helpAbout : String := "Print this message or the help of the given subcommand(s)"

/-- What reading the command line gives: the command and the values of its arguments, with
those it inherits. -/
structure Parsed where
  command : String
  given : List Given
deriving DecidableEq, Repr

namespace Parsed

/-- The values of an argument. -/
def values (p : Parsed) (id : String) : List String :=
  ((p.given.find? (·.id == id)).map (·.values)).getD []

/-- The value of an argument, if it has one. -/
def value? (p : Parsed) (id : String) : Option String := (p.values id).head?

/-- Whether a switch was given. -/
def flag (p : Parsed) (id : String) : Bool := p.value? id == some "true"

end Parsed

namespace Program

/-- The program as the reader sees it. -/
def top (p : Program) : Level :=
  { name := p.name, usageName := p.name, about := p.about, args := p.args ++ [helpArg, versionArg],
    commands := p.commands.map (fun c => (c.name, c.about)) ++ [("help", helpAbout)] }

/-- A command as the reader sees it, with the program's inherited arguments and a help option. -/
def level (p : Program) (c : Command) : Level :=
  { name := c.name, usageName := p.name ++ " " ++ c.name, about := c.about,
    args := c.args ++ p.args.filter (·.global) ++ [helpArg] }

/-- The argument of the built-in `help` command: the commands to show the help of. -/
def commandsArg : Arg :=
  { id := "subcommand", valueName := "COMMAND", help := "Print help for the subcommand(s)",
    action := .repeated, positional := true }

/-- The built-in `help` command as the reader sees it. -/
def helpLevel (p : Program) : Level :=
  { name := "help", usageName := p.name ++ " help", about := helpAbout,
    args := [commandsArg] }

/-- The command of a name. -/
def levelOf? (p : Program) (name : String) : Option Level :=
  if name == "help" then some p.helpLevel else (p.commands.find? (·.name == name)).map p.level

/-- What the version option prints. -/
def versionText (p : Program) : String := p.name ++ " " ++ p.version ++ "\n"

/-- What `help` followed by command names prints. -/
def helpFor (p : Program) (env : List (String × String)) : List String → Stop
  | [] => .help (p.top.helpText env)
  | n :: more =>
    match p.levelOf? n with
    | none => .complaint { message := "unrecognized subcommand '" ++ n ++ "'", usage := some p.top.helpUsage }
    | some l =>
      match more with
      | [] => .help (l.helpText env)
      | m :: _ =>
        let message := "unrecognized subcommand '" ++ m ++ "'"
        .complaint { message, usage := some l.helpUsage, pointsToHelp := l.hasHelp }

/-- Reads a command line. -/
def read (p : Program) (env : List (String × String)) (words : List String) : Except Stop Parsed := do
  let below := p.commands.map p.level ++ [p.helpLevel]
  let outer : Scope := { level := p.top, below, env, versionText := p.versionText }
  let (r, next) ← readWords outer {} words
  match next with
  | none =>
    let r ← finish outer r
    throw (missingCommand outer r)
  | some (name, rest) =>
    if name == "help" then throw (p.helpFor env rest)
    match p.levelOf? name with
    | none => throw (missingCommand outer r)
    | some l =>
      let inner : Scope := { level := l, env, versionText := p.versionText }
      let (cr, _) ← readWords inner {} rest
      let cr ← finish inner cr
      let r ← finish outer r
      let kept := (p.args.filter (·.global)).filterMap fun a => inherit r.given cr.given a.id
      pure ⟨name, kept ++ cr.given.filter fun g => !p.args.any (·.id == g.id)⟩

end Program
end Cli
end QueryShield
