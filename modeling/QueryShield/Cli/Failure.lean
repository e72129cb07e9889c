/-!
# Failures of the command line

A failed command reports a chain of messages: what it was doing, then why that failed, then
why that failed, and so on.  The chain is shown in two forms.  On one line the messages are
joined by `: `.  In the report a program prints when it exits, the first message follows
`Error: `; the causes come after a `Caused by:` heading, indented by four spaces, and numbered
from zero when there is more than one.  A cause of several lines keeps its line breaks, each
following line indented like the first.
-/

namespace QueryShield
namespace Cli

/-- A failure: its message and the chain of its causes, outermost first. -/
structure Failure where
  message : String
  causes : List String := []
deriving DecidableEq, Repr

namespace Failure

/-- The failure seen from an enclosing step: `what` failed because of this failure. -/
def within (what : String) (f : Failure) : Failure := ⟨what, f.message :: f.causes⟩

/-- The chain on one line. -/
def joined (f : Failure) : String := ": ".intercalate (f.message :: f.causes)

/-- A text with `first` before its first line and `rest` before each following line. -/
def indentLines (first rest text : String) : String :=
  match text.splitOn "\n" with
  | [] => first
  | l :: ls => first ++ l ++ String.join (ls.map fun x => "\n" ++ rest ++ x)

/-- A number right-aligned in five columns. -/
def rightAligned (n : Nat) : String :=
  let s := toString n
  String.ofList (List.replicate (5 - s.length) ' ') ++ s

/-- The report printed on exit. -/
def report (f : Failure) : String :=
  let causes := match f.causes with
    | [] => ""
    | [c] => "\n\nCaused by:\n" ++ indentLines "    " "    " c
    | cs => "\n\nCaused by:" ++ String.join (cs.zipIdx.map fun (c, i) =>
        "\n" ++ indentLines (rightAligned i ++ ": ") "       " c)
  "Error: " ++ f.message ++ causes ++ "\n"

end Failure
end Cli
end QueryShield
