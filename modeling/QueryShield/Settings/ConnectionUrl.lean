import QueryShield.Url.Reading
import QueryShield.Text.Utf8
import QueryShield.Text.Shown
import QueryShield.Settings.Basic
import QueryShield.Query.Fault

/-!
# Connection URLs of the database

Before a pool is built, its connection URL is read as a URL and then as connection options:
the user, the password and the database name (the path without its leading slashes) are
percent-decoded and must be UTF-8; in the query, `ssl-mode` (or `sslmode`) must name one of
the known modes, in any case, and `statement-cache-capacity` must be a whole number.  Other
query options are taken as they are.  The scheme is not checked.

Every failure is a configuration error.  A mode or a number that cannot be read is reported
as a configuration error inside a configuration error, since the option reader wraps the
reason it was given.
-/

namespace QueryShield
namespace ConnectionUrl

/-- The modes of transport security. -/
def sslModes : List String := ["disabled", "preferred", "required", "verify_ca", "verify_identity"]

/-- Why a whole number could not be read. -/
def wholeNumberFault (s : String) : Option String :=
  let cs := match s.toList with
    | '+' :: rest => rest
    | cs => cs
  if s.isEmpty then some "cannot parse integer from empty string"
  else if cs.isEmpty || !cs.all Url.isAsciiDigit then some "invalid digit found in string"
  else
    let v : Nat := cs.foldl (fun acc c => acc * 10 + (c.toNat - '0'.toNat)) 0
    if v ≥ Nat.pow 2 64 then some "number too large to fit in target type" else none

/-- The text of a form-encoded component: `+` is a space, escapes are decoded, and bytes
that are not UTF-8 become replacement characters. -/
def formText (cs : List Char) : String :=
  Utf8.textLossy (Url.percentDecode (cs.map fun c => if c == '+' then ' ' else c))

/-- The name-value pairs of a query. -/
def queryPairs (query : String) : List (String × String) :=
  (query.toList.splitOn '&').filterMap fun part =>
    if part.isEmpty then none
    else
      let name := part.takeWhile (· != '=')
      some (formText name, formText (part.drop (name.length + 1)))

/-- Checks that a percent-encoded text decodes to UTF-8. -/
def decodes (text : String) : Except String Unit :=
  match Utf8.check 0 (Url.percentDecode text.toList) with
  | some f => .error f.message
  | none => .ok ()

/-- Checks the options of the query, in order. -/
def checkOptions : List (String × String) → Except String Unit
  | [] => .ok ()
  | (k, v) :: rest => do
    if k == "sslmode" || k == "ssl-mode" then
      if !sslModes.contains (v.map Char.toLower) then
        throw ("error with configuration: unknown value " ++ Text.shown v ++ " for `ssl_mode`")
    if k == "statement-cache-capacity" then
      if let some f := wholeNumberFault v then throw f
    checkOptions rest

/-- Checks a connection URL; the failure's text follows `error with configuration: `. -/
def check (url : String) : Except String Unit := do
  let parts ← (Url.read url).mapError (·.message)
  if !parts.user.isEmpty then decodes parts.user
  if let some pw := parts.password then
    if !pw.isEmpty then decodes pw
  decodes (String.ofList (parts.path.toList.dropWhile (· == '/')))
  if let some q := parts.query then checkOptions (queryPairs q)

end ConnectionUrl

/-- Builds a pool from the settings, without connecting: a connection URL that cannot be read
is a programming failure. -/
def DatabaseSettings.openPool (d : DatabaseSettings) (env : Environment) : Except PoolFault Unit :=
  (ConnectionUrl.check (d.connectionString env)).mapError
    fun r => ⟨.programming, "error with configuration: " ++ r⟩

end QueryShield
