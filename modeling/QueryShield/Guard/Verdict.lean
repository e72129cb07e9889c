/-!
# Families, hazards and verdicts

The guard looks for three families of signs: symbols, keywords and logic words.  A caller
chooses any union of them (`Families`).  A finding names its hazard and the text that was
matched (`Verdict`); a refused input becomes a `GuardError`.
-/

namespace QueryShield

/-- The families of signs the guard looks for. -/
structure Families where
  symbols : Bool := false
  keywords : Bool := false
  logicWords : Bool := false
deriving DecidableEq, Repr

namespace Families

/-- No family at all. -/
def none : Families := {}

/-- Symbols only. -/
def onlySymbols : Families := { symbols := true }

/-- Keywords only. -/
def onlyKeywords : Families := { keywords := true }

/-- Logic words only. -/
def onlyLogicWords : Families := { logicWords := true }

/-- Every family. -/
def all : Families := { symbols := true, keywords := true, logicWords := true }

/-- The union of two choices of families. -/
def union (a b : Families) : Families :=
  { symbols := a.symbols || b.symbols
    keywords := a.keywords || b.keywords
    logicWords := a.logicWords || b.logicWords }

instance : OrOp Families := ⟨union⟩

/-- Whether every family of `other` is also chosen in `self`. -/
def contains (self other : Families) : Bool :=
  (!other.symbols || self.symbols) && (!other.keywords || self.keywords) &&
    (!other.logicWords || self.logicWords)

/-- Symbols and keywords, the families names are screened with. -/
def symbolsAndKeywords : Families := { symbols := true, keywords := true }

end Families

/-- What kind of sign made the guard refuse a text. -/
inductive Hazard where
  | symbol
  | keyword
  | logicWord
  | base64
deriving DecidableEq, Repr

namespace Hazard

/-- The hazard in prose, as error messages write it. -/
def describe : Hazard → String
  | .symbol => "symbol"
  | .keyword => "keyword"
  | .logicWord => "logic gate"
  | .base64 => "base64 payload"

/-- The hazard's wire name, in snake case. -/
def wireName : Hazard → String
  | .symbol => "symbol"
  | .keyword => "keyword"
  | .logicWord => "logic_gate"
  | .base64 => "base64"

/-- The hazard's variant name, as debug output writes it. -/
def variantName : Hazard → String
  | .symbol => "Symbol"
  | .keyword => "Keyword"
  | .logicWord => "LogicGate"
  | .base64 => "Base64"

end Hazard

/-- The guard's answer about one text: clean, or flagged with the hazard and the text
that matched (as it stands in the input). -/
inductive Verdict where
  | clean
  | flagged (hazard : Hazard) (matched : String)
deriving DecidableEq, Repr

namespace Verdict

/-- Whether the text was flagged. -/
def isFlagged : Verdict → Bool
  | .clean => false
  | .flagged _ _ => true

/-- The hazard of a flagged text. -/
def hazard? : Verdict → Option Hazard
  | .clean => none
  | .flagged h _ => some h

/-- The matched text of a flagged text. -/
def matched? : Verdict → Option String
  | .clean => none
  | .flagged _ m => some m

end Verdict

/-- Why the guard refused an input. -/
inductive GuardError where
  /-- The input carries a sign of injection. -/
  | injection (input : String) (hazard : Hazard)
  /-- A clause is not well formed. -/
  | malformed (reason : String)
  /-- A trigger definition is refused. -/
  | invalidTrigger (reason : String)
deriving DecidableEq, Repr

namespace GuardError

/-- The error message. -/
def message : GuardError → String
  | .injection input h => "injection detected (" ++ h.describe ++ ") in '" ++ input ++ "'"
  | .malformed reason => "malformed clause: " ++ reason
  | .invalidTrigger reason => "invalid trigger: " ++ reason

/-- The error's variant name. -/
def variantName : GuardError → String
  | .injection _ _ => "InjectionDetected"
  | .malformed _ => "MalformedClause"
  | .invalidTrigger _ => "InvalidTrigger"

end GuardError

/-- A verdict as a check: flagged texts are refused as injections. -/
def Verdict.toCheck (v : Verdict) (input : String) : Except GuardError Unit :=
  match v with
  | .clean => .ok ()
  | .flagged h _ => .error (.injection input h)

end QueryShield
