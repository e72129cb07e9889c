import QueryShield.Text.Fold

/-!
# Word lists of the guard

The vocabularies the guard works with.  All lists are lower case; look-ups ignore ASCII
case.

* `statementWords` start a second statement (`select`, `drop`, ...);
* `reservedWords` are the server's reserved words;
* `logicWords` are the connectives and predicate words;
* `hazardSymbols` are character sequences that never occur in an honest value;
* `clauseWords` may stand in a `WHERE` fragment as they are.

A reserved word that is not a logic word must be quoted with backticks when it names a
column (`needsQuoting`).
-/

namespace QueryShield
namespace Lexicon

/-- Character sequences that never appear in an honest filter value, in matching order. -/
def hazardSymbols : List String := [
  ";", "--", "/*", "*/", "#", "@@", "@", "'",
  "\"", "`", "||"]

/-- Statement words that indicate an attempt to run a second command. -/
def statementWords : List String := [
  "select", "insert", "update", "delete", "drop", "create", "alter", "table",
  "union", "join", "where"]

/-- The server's reserved words. -/
def reservedWords : List String := [
  "add", "all", "alter", "analyze", "and", "as", "asc", "asensitive",
  "before", "between", "bigint", "binary", "blob", "both", "by", "call",
  "cascade", "case", "change", "char", "character", "check", "collate", "column",
  "condition", "constraint", "continue", "convert", "create", "cross", "current_date", "current_time",
  "current_timestamp", "cursor", "database", "databases", "day_hour", "day_microsecond", "day_minute", "day_second",
  "dec", "decimal", "declare", "default", "delayed", "delete", "desc", "describe",
  "deterministic", "distinct", "distinctrow", "div", "double", "drop", "dual", "each",
  "else", "elseif", "enclosed", "escaped", "exists", "exit", "explain", "false",
  "fetch", "float", "for", "force", "foreign", "from", "fulltext", "general",
  "grant", "group", "having", "high_priority", "hour_microsecond", "hour_minute", "hour_second", "if",
  "ignore", "in", "index", "infile", "inner", "inout", "insensitive", "insert",
  "int", "integer", "interval", "into", "is", "iterate", "join", "key",
  "keys", "kill", "leading", "leave", "left", "like", "limit", "linear",
  "lines", "load", "localtime", "localtimestamp", "lock", "long", "longblob", "longtext",
  "loop", "low_priority", "master_ssl_verify_server_cert", "match", "maxvalue", "mediumblob", "mediumint", "mediumtext",
  "middleint", "minute_microsecond", "minute_second", "mod", "modifies", "natural", "not", "no_write_to_binlog",
  "null", "numeric", "on", "optimize", "option", "optionally", "or", "order",
  "out", "outer", "outfile", "precision", "primary", "procedure", "purge", "range",
  "read", "reads", "read_write", "real", "references", "regexp", "release", "rename",
  "repeat", "replace", "require", "resignal", "restrict", "return", "revoke", "right",
  "rlike", "schema", "schemas", "second_microsecond", "select", "sensitive", "separator", "set",
  "show", "signal", "smallint", "spatial", "specific", "sql", "sqlexception", "sqlstate",
  "sqlwarning", "sql_big_result", "sql_calc_found_rows", "sql_small_result", "ssl", "starting", "stored", "straight_join",
  "table", "terminated", "then", "tinyblob", "tinyint", "tinytext", "to", "trailing",
  "trigger", "true", "undo", "union", "unique", "unlock", "unsigned", "update",
  "usage", "use", "using", "utc_date", "utc_time", "utc_timestamp", "values", "varbinary",
  "varchar", "varcharacter", "varying", "virtual", "when", "where", "while", "with",
  "write", "xor", "year_month", "zerofill"]

/-- Boolean connectives and predicate words. -/
def logicWords : List String := [
  "and", "or", "not", "xor", "between", "in", "is", "like",
  "regexp", "rlike", "null", "true", "false", "exists", "distinct", "limit",
  "having", "join", "union", "current_date", "current_time", "current_timestamp", "utc_date", "utc_time",
  "utc_timestamp", "mod", "if"]

/-- Tokens a `WHERE` fragment may hold without further inspection. -/
def clauseWords : List String := [
  "(", ")", ",", "or", "and", "=", "!=", "<>",
  "<", ">", "<=", ">=", "like", "in", "not", "is",
  "null", "true", "false"]

/-- Statements a trigger body must never hold. -/
def forbiddenTriggerStatements : List String := [
  "drop", "alter", "truncate", "create database", "use", "grant", "revoke", "load data",
  "outfile", "infile"]

/-- Schemas a trigger may never touch. -/
def systemSchemas : List String := [
  "mysql", "information_schema", "performance_schema", "sys"]

/-- Whether `word` is in `list`, ignoring ASCII case. -/
def memIgnoreCase (list : List String) (word : String) : Bool :=
  list.any fun k => Text.eqIgnoreAsciiCase k word

/-- Whether `word` is a reserved word. -/
def isReserved (word : String) : Bool := memIgnoreCase reservedWords word

/-- Whether `word` is a logic word. -/
def isLogicWord (word : String) : Bool := memIgnoreCase logicWords word

/-- Whether `word` is a clause word. -/
def isClauseWord (word : String) : Bool := memIgnoreCase clauseWords word

/-- Whether `word` is a statement word. -/
def isStatementWord (word : String) : Bool := memIgnoreCase statementWords word

/-- A reserved word that is not a logic word must be quoted when it names a column. -/
def needsQuoting (word : String) : Bool := isReserved word && !isLogicWord word

/-- The words the keyword family looks for: the statement words, then the reserved words
not already among them. -/
def keywordFamilyWords : List String :=
  statementWords ++ reservedWords.filter (fun k => !statementWords.contains k)

end Lexicon
end QueryShield
