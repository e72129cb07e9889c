/-!
# Failures of the cache

A key-value store fails in one of two ways: it cannot be reached, or it refuses a command.
A failure reported by a remote store server is of the first kind exactly when it is an
input/output failure (refused or dropped connections and time-outs are such failures), and
of the second kind otherwise.  The cache as a whole adds one more failure: a payload that
cannot be encoded or decoded.
-/

namespace QueryShield

/-- How a key-value store failed. -/
inductive StoreFault where
  /-- The store could not be reached. -/
  | unreachable (reason : String)
  /-- The store refused a command. -/
  | refused (reason : String)
deriving DecidableEq, Repr

namespace StoreFault

/-- The failure's message. -/
def message : StoreFault → String
  | .unreachable r => "cache store unreachable: " ++ r
  | .refused r => "cache command failed: " ++ r

/-- Whether the store could not be reached. -/
def isConnectivity : StoreFault → Bool
  | .unreachable _ => true
  | .refused _ => false

/-- The failure's variant name. -/
def variantName : StoreFault → String
  | .unreachable _ => "Connectivity"
  | .refused _ => "Command"

end StoreFault

/-- The kinds of failure a store server reports in a reply. -/
inductive ServerFaultKind where
  | response
  | type
  | client
  | auth
  | busyLoading
  | invalidClientConfig
deriving DecidableEq, Repr

namespace ServerFaultKind

/-- The kind's name, as the server client writes it. -/
def name : ServerFaultKind → String
  | .response => "ResponseError"
  | .type => "TypeError"
  | .client => "ClientError"
  | .auth => "AuthenticationFailed"
  | .busyLoading => "BusyLoadingError"
  | .invalidClientConfig => "InvalidClientConfig"

end ServerFaultKind

/-- A failure reported by a store server's client. -/
inductive ServerFault where
  /-- An input/output failure, with its text. -/
  | io (detail : String)
  /-- A failure of a kind, with a description and a detail. -/
  | reply (kind : ServerFaultKind) (description detail : String)
deriving DecidableEq, Repr

namespace ServerFault

/-- The failure's text: `description - Kind: detail` for a reply. -/
def text : ServerFault → String
  | .io detail => detail
  | .reply kind description detail => description ++ " - " ++ kind.name ++ ": " ++ detail

/-- The store failure of a server failure: input/output failures make the store
unreachable, all others are refusals. -/
def toStoreFault (f : ServerFault) : StoreFault :=
  match f with
  | .io _ => .unreachable f.text
  | .reply .. => .refused f.text

end ServerFault

/-- How the cache failed. -/
inductive CacheFault where
  /-- The store failed. -/
  | store (fault : StoreFault)
  /-- A payload could not be encoded or decoded. -/
  | serialization (reason : String)
deriving DecidableEq, Repr

namespace CacheFault

/-- The failure's message. -/
def message : CacheFault → String
  | .store f => f.message
  | .serialization r => "cache serialization error: " ++ r

/-- Whether the store could not be reached. -/
def isConnectivity : CacheFault → Bool
  | .store f => f.isConnectivity
  | .serialization _ => false

end CacheFault
end QueryShield
