import QueryShield.Cli.Spec

/-!
# The command line of the tool

The tool takes a settings file (`-c`, `--config`, or the `SQLWARD_CONFIG` variable) and a log
level, both inherited by every command, and five commands: `scan`, `parameterize`,
`cache-key`, `check-config` and `probe`.  The help texts are the tool's own.
-/

namespace QueryShield
namespace Cli

/-- The settings file. -/
def configArg : Arg :=
  { id := "config", short := some 'c', long := some "config", valueName := "CONFIG",
    help := "Configuration file (YAML, or TOML when the extension is .toml)", action := .single,
    env := some "SQLWARD_CONFIG", global := true, nonEmpty := true, order := 0 }

/-- The log level. -/
def logLevelArg : Arg :=
  { id := "log_level", long := some "log-level", valueName := "LOG_LEVEL",
    help := "Log level when RUST_LOG is unset. Defaults to the configured level", action := .single,
    global := true, order := 1 }

/-- `scan`: inspects a text. -/
def scanCommand : Command :=
  { name := "scan", about := "Check text for injection patterns. Exits with status 1 when flagged",
    args := [
      { id := "text", valueName := "TEXT", help := "Text to inspect", action := .single,
        positional := true, required := true },
      { id := "families", long := some "family", valueName := "FAMILIES",
        help := "Pattern families to apply (repeatable)", action := .repeated,
        choices := ["symbols", "keywords", "logic-gates", "all"], defaults := ["all"], order := 0 },
      { id := "json", long := some "json", help := "Print the verdict as JSON", action := .flag,
        order := 1 }] }

/-- `parameterize`: rewrites clause fragments. -/
def parameterizeCommand : Command :=
  { name := "parameterize", about := "Rewrite WHERE fragments into placeholder form",
    args := [
      { id := "fragments", valueName := "FRAGMENTS", help := "Clause fragments, joined with AND",
        action := .repeated, positional := true, required := true },
      { id := "inline", long := some "inline",
        help := "Also print the clause with parameters substituted back", action := .flag, order := 0 },
      { id := "json", long := some "json", action := .flag, order := 1 }] }

/-- `cache-key`: prints a cache key. -/
def cacheKeyCommand : Command :=
  { name := "cache-key", about := "Print the cache key a call would use",
    args := [
      { id := "category", long := some "category", valueName := "CATEGORY", action := .single,
        required := true, choices := ["version", "schema", "data", "count"], order := 0 },
      { id := "name", long := some "name", valueName := "NAME",
        help := "Key name, e.g. a table name or `table_names`", action := .single, required := true,
        order := 1 },
      { id := "params", long := some "param", valueName := "PARAMS",
        help := "Call parameter as name=JSON (repeatable); invalid JSON is taken as a string",
        action := .repeated, order := 2 },
      { id := "set_params", long := some "set-param", valueName := "SET_PARAMS",
        help := "Unordered parameter as name=JSON array (repeatable)", action := .repeated,
        order := 3 }] }

/-- `check-config`: checks the settings file. -/
def checkCommand : Command :=
  { name := "check-config", about := "Validate the configuration file and print a summary", args := [] }

/-- `probe`: connects to the database. -/
def probeCommand : Command :=
  { name := "probe", about := "Connect to the configured database and report what it sees",
    args := [
      { id := "table", long := some "table", valueName := "TABLE",
        help := "Also describe and count this table", action := .single, order := 0 },
      { id := "no_cache", long := some "no-cache",
        help := "Skip the cache store even if enabled in configuration", action := .flag, order := 1 }] }

/-- The tool. -/
def tool : Program :=
  { name := "sqlward", about := "SQL injection guard and query cache toolkit", version := "0.4.0",
    args := [configArg, logLevelArg],
    commands := [scanCommand, parameterizeCommand, cacheKeyCommand, checkCommand, probeCommand] }

end Cli
end QueryShield
