import QueryShield.Text.Utf8

/-!
# Reading URLs

A URL is read the way web browsers read one, as far as deciding whether it is well formed and
finding its user, password, host, port, path and query.  Leading and trailing control
characters and spaces are dropped, and tabs and line breaks anywhere are ignored.  A URL
without a scheme has nothing to be resolved against, so it is refused.

After `scheme://` comes the authority: user information up to the last `@`, then the host and
an optional port.  For the special schemes (`http`, `https`, `ws`, `wss`, `ftp`) backslashes
end the authority like slashes, any number of slashes may follow the scheme, the host may not
be empty and a host that ends in a number is an IPv4 address; other schemes take the host as
opaque text, where only some characters are forbidden.  A host in brackets is an IPv6
address.  A port is at most 65535 and ends at `/`, `\`, `?` or `#`; anything else in it is
refused.  An authority with a user or a password but no host is refused.

A refusal is one of the reasons below, each with its fixed message.
-/

namespace QueryShield
namespace Url

/-- Why a URL is not well formed. -/
inductive Refusal where
  | relativeWithoutBase
  | emptyHost
  | invalidPort
  | invalidIpv4
  | invalidIpv6
  | invalidDomainCharacter
deriving DecidableEq, Repr

/-- The refusal's message. -/
def Refusal.message : Refusal → String
  | .relativeWithoutBase => "relative URL without a base"
  | .emptyHost => "empty host"
  | .invalidPort => "invalid port number"
  | .invalidIpv4 => "invalid IPv4 address"
  | .invalidIpv6 => "invalid IPv6 address"
  | .invalidDomainCharacter => "invalid domain character"

/-- The parts of a well-formed URL, as written (still percent-encoded). -/
structure Parts where
  scheme : String
  user : String := ""
  password : Option String := none
  host : String := ""
  port : Option Nat := none
  path : String := ""
  query : Option String := none
deriving DecidableEq, Repr

/-! ## Characters -/

/-- Whether a character is dropped from the ends of a URL. -/
def isEdgeJunk (c : Char) : Bool := c.toNat ≤ 0x20

/-- Whether a character is ignored anywhere in a URL. -/
def isIgnored (c : Char) : Bool := c == '\t' || c == '\n' || c == '\r'

/-- Whether a character is an ASCII letter. -/
def isAsciiAlpha (c : Char) : Bool := c.toNat < 0x80 && c.isAlpha

/-- Whether a character is an ASCII digit. -/
def isAsciiDigit (c : Char) : Bool := '0' ≤ c && c ≤ '9'

/-- The value of an ASCII hexadecimal digit. -/
def hexValue? (c : Char) : Option Nat :=
  if isAsciiDigit c then some (c.toNat - '0'.toNat)
  else if 'a' ≤ c && c ≤ 'f' then some (c.toNat - 'a'.toNat + 10)
  else if 'A' ≤ c && c ≤ 'F' then some (c.toNat - 'A'.toNat + 10)
  else none

/-- Characters no opaque host may hold. -/
def isForbiddenHostChar (c : Char) : Bool :=
  c == '\x00' || c == '\t' || c == '\n' || c == '\r' || c == ' ' || c == '#' || c == '/' ||
    c == ':' || c == '<' || c == '>' || c == '?' || c == '@' || c == '[' || c == '\\' ||
    c == ']' || c == '^' || c == '|'

/-- Characters no domain may hold: those no opaque host may hold, controls, `%` and
delete. -/
def isForbiddenDomainChar (c : Char) : Bool :=
  isForbiddenHostChar c || c.toNat ≤ 0x1F || c == '%' || c.toNat == 0x7F

/-- The schemes with their own rules. -/
def specialSchemes : List String := ["http", "https", "ws", "wss", "ftp"]

/-! ## IPv6 addresses -/

/-- The number of hexadecimal digits at the start, at most `n`. -/
def hexCount : Nat → List Char → Nat
  | 0, _ => 0
  | n + 1, c :: cs => if (hexValue? c).isSome then hexCount n cs + 1 else 0
  | _ + 1, [] => 0

/-- Reads a decimal part of an embedded IPv4 address (no leading zero, at most 255) and
returns the rest. -/
def ipv4Part (cs : List Char) : Option (List Char) :=
  let digits := cs.takeWhile isAsciiDigit
  match digits with
  | [] => none
  | d :: more =>
    let v := digits.foldl (fun acc c => acc * 10 + (c.toNat - '0'.toNat)) 0
    if d == '0' && !more.isEmpty then none
    else if v > 255 then none
    else some (cs.drop digits.length)

/-- Whether the text is an IPv4 address of four decimal parts, up to its end. -/
def embeddedIpv4 (cs : List Char) : Bool :=
  match ipv4Part cs with
  | some ('.' :: r1) =>
    match ipv4Part r1 with
    | some ('.' :: r2) =>
      match ipv4Part r2 with
      | some ('.' :: r3) => ipv4Part r3 == some []
      | _ => false
    | _ => false
  | _ => false

/-- Checks the rest of an IPv6 address; `pieces` counts the 16-bit pieces so far, and
`compressed` says whether `::` stood for the missing ones. -/
def ipv6Pieces (pieces : Nat) (compressed : Bool) (cs : List Char) : Bool :=
  match cs with
  | [] => compressed || pieces == 8
  | ':' :: rest =>
    if pieces == 8 || compressed then false else ipv6Pieces (pieces + 1) true rest
  | c :: rest =>
    if pieces == 8 then false
    else
      let k := hexCount 4 (c :: rest)
      match h : (c :: rest).drop k with
      | '.' :: _ => k > 0 && pieces ≤ 6 && embeddedIpv4 (c :: rest) && (compressed || pieces + 2 == 8)
      | ':' :: more => !more.isEmpty && ipv6Pieces (pieces + 1) compressed more
      | [] => compressed || pieces + 1 == 8
      | _ => false
termination_by cs.length
decreasing_by
  · simp
  · have := congrArg List.length h
    simp only [List.length_drop, List.length_cons] at this
    simp only [List.length_cons]
    omega

/-- Whether a text (without its brackets) is an IPv6 address. -/
def isIpv6 (cs : List Char) : Bool :=
  match cs with
  | ':' :: ':' :: rest => ipv6Pieces 1 true rest
  | ':' :: _ => false
  | _ => cs.length ≥ 2 && ipv6Pieces 0 false cs

/-! ## IPv4 addresses -/

/-- The value of one part of an IPv4 address: hexadecimal after `0x`, octal after a leading
zero, decimal otherwise; an empty part after `0x` is zero. -/
def ipv4Number (part : List Char) : Option Nat :=
  let digitsIn (base : Nat) (ds : List Char) : Option Nat :=
    ds.foldlM (fun acc c => do
      let d ← hexValue? c
      if d < base then some (acc * base + d) else none) 0
  match part with
  | '0' :: x :: rest => if x == 'x' || x == 'X' then digitsIn 16 rest else digitsIn 8 (x :: rest)
  | [] => none
  | ds => digitsIn 10 ds

/-- The parts of a domain between dots, without one trailing empty part. -/
def domainParts (cs : List Char) : List (List Char) :=
  let parts := cs.splitOn '.'
  if parts.length > 1 && parts.getLast? == some [] then parts.dropLast else parts

/-- Whether a domain's last part is a number, so that the domain is an IPv4 address. -/
def endsInNumber (cs : List Char) : Bool :=
  match (domainParts cs).getLast? with
  | some last =>
    !last.isEmpty && (last.all isAsciiDigit ||
      match last with
      | '0' :: x :: rest => (x == 'x' || x == 'X') && rest.all fun c => (hexValue? c).isSome
      | _ => false)
  | none => false

/-- Whether a domain that ends in a number is a valid IPv4 address. -/
def isIpv4 (cs : List Char) : Bool :=
  let parts := domainParts cs
  match parts.mapM ipv4Number with
  | none => false
  | some values =>
    parts.length ≤ 4 &&
      (values.dropLast.all (· ≤ 255)) &&
      values.getLast?.all (· < Nat.pow 256 (5 - parts.length))

/-! ## Hosts and ports -/

/-- Percent-decodes the bytes of a text where a `%` is followed by two hexadecimal digits. -/
def percentDecode : List Char → List UInt8
  | '%' :: a :: b :: rest =>
    match hexValue? a, hexValue? b with
    | some x, some y => (x * 16 + y).toUInt8 :: percentDecode rest
    | _, _ => '%'.toUInt8 :: percentDecode (a :: b :: rest)
  | c :: rest => (String.singleton c).toUTF8.toList ++ percentDecode rest
  | [] => []

/-- Checks a host of a special scheme: not empty, no forbidden character, and a valid IPv4
address when it ends in a number. -/
def checkDomain (host : List Char) : Except Refusal Unit :=
  match host with
  | '[' :: inner =>
    if inner.getLast? != some ']' then .error .invalidIpv6
    else if isIpv6 inner.dropLast then .ok () else .error .invalidIpv6
  | _ =>
    let decoded := Utf8.textLossy (percentDecode host)
    let domain := (decoded.map Char.toLower).toList
    if domain.isEmpty then .error .emptyHost
    else if domain.any isForbiddenDomainChar then .error .invalidDomainCharacter
    else if endsInNumber domain && !isIpv4 domain then .error .invalidIpv4
    else .ok ()

/-- Checks an opaque host. -/
def checkOpaqueHost (host : List Char) : Except Refusal Unit :=
  match host with
  | '[' :: inner =>
    if inner.getLast? != some ']' then .error .invalidIpv6
    else if isIpv6 inner.dropLast then .ok () else .error .invalidIpv6
  | _ => if host.any isForbiddenHostChar then .error .invalidDomainCharacter else .ok ()

/-- Splits the host from what follows it: the host ends at a `:` outside brackets or at the
end of the authority. -/
def hostSpan (isEnd : Char → Bool) : Bool → List Char → List Char × List Char
  | _, [] => ([], [])
  | inBrackets, c :: cs =>
    if (c == ':' && !inBrackets) || isEnd c then ([], c :: cs)
    else
      let inBrackets' := if c == '[' then true else if c == ']' then false else inBrackets
      let (h, rest) := hostSpan isEnd inBrackets' cs
      (c :: h, rest)

/-- Reads a port: decimal digits up to 65535, ended by the end of the text or by `/`, `\`,
`?` or `#`. -/
def readPort : List Char → Nat → Bool → Except Refusal (Option Nat × List Char)
  | [], v, seen => .ok (if seen then some v else none, [])
  | c :: cs, v, seen =>
    if isAsciiDigit c then
      let v' := v * 10 + (c.toNat - '0'.toNat)
      if v' > 65535 then .error .invalidPort else readPort cs v' true
    else if c == '/' || c == '\\' || c == '?' || c == '#' then
      .ok (if seen then some v else none, c :: cs)
    else .error .invalidPort

/-- The position of the last `@`. -/
def lastAt (cs : List Char) : Option Nat :=
  (cs.zipIdx.filter (·.1 == '@')).getLast?.map (·.2)

/-! ## Whole URLs -/

/-- The path and query of what follows the authority. -/
def pathAndQuery (parts : Parts) (rest : List Char) : Parts :=
  let beforeFragment := rest.takeWhile (· != '#')
  let path := beforeFragment.takeWhile (· != '?')
  let query := beforeFragment.drop path.length
  { parts with path := String.ofList path,
               query := if query.isEmpty then none else some (String.ofList (query.drop 1)) }

/-- Reads the authority and what follows it. -/
def readAuthority (special : Bool) (scheme : String) (cs : List Char) : Except Refusal Parts := do
  let isEnd (c : Char) : Bool := c == '/' || c == '?' || c == '#' || (special && c == '\\')
  let auth := cs.takeWhile (!isEnd ·)
  let (user, password, hostPart) ← match lastAt auth with
    | none => pure ([], none, cs)
    | some 0 =>
      match cs.drop 1 with
      | c :: _ => if isEnd c then throw .emptyHost else pure ([], none, cs.drop 1)
      | [] => pure ([], none, [])
    | some i =>
      let info := auth.take i
      let user := info.takeWhile (· != ':')
      let pw := info.drop (user.length + 1)
      pure (user, (if user.length < info.length then some pw else none), cs.drop (i + 1))
  let hasAuthority := !user.isEmpty || password.any (!·.isEmpty)
  let (host, afterHost) := hostSpan isEnd false hostPart
  if special then
    if host.isEmpty then throw .emptyHost
    checkDomain host
  else
    checkOpaqueHost host
    if host.isEmpty && afterHost.head? == some ':' then throw .emptyHost
  let (port, rest) ← match afterHost with
    | ':' :: p => readPort p 0 false
    | other => pure (none, other)
  if host.isEmpty && hasAuthority then throw .emptyHost
  let pw := password.map String.ofList
  pure (pathAndQuery ⟨scheme, String.ofList user, pw, String.ofList host, port, "", none⟩ rest)

/-- The scheme at the start, lower-cased, and what follows its colon. -/
def readScheme (cs : List Char) : Option (String × List Char) :=
  match cs with
  | a :: more =>
    if !isAsciiAlpha a then none
    else
      let name := a :: more.takeWhile fun c =>
        (c.toNat < 0x80 && c.isAlphanum) || c == '+' || c == '-' || c == '.'
      match cs.drop name.length with
      | ':' :: rest => some (String.ofList (name.map Char.toLower), rest)
      | _ => none
  | [] => none

/-- Reads a URL. -/
def read (text : String) : Except Refusal Parts :=
  let trimmed := ((text.toList.dropWhile isEdgeJunk).reverse.dropWhile isEdgeJunk).reverse
  let cs := trimmed.filter (!isIgnored ·)
  match readScheme cs with
  | none => .error .relativeWithoutBase
  | some (scheme, rest) =>
    if scheme == "file" then .ok (pathAndQuery { scheme := scheme } rest)
    else if specialSchemes.contains scheme then
      readAuthority true scheme (rest.dropWhile fun c => c == '/' || c == '\\')
    else
      match rest with
      | '/' :: '/' :: after => readAuthority false scheme after
      | _ => .ok (pathAndQuery { scheme := scheme } rest)

end Url
end QueryShield
