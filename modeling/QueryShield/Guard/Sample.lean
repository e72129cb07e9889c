import QueryShield.Guard.Screen
import QueryShield.Number.Binary64

/-!
# Samples: nested values the screen walks

A sample is a tree whose leaves are scalars: strings, whole numbers, binary64 numbers, and
leaves with nothing to read (null, booleans, an absent option).  The screen reads every leaf's
text form, depth first, and flags the sample when any one text is flagged.

Main statement: `Sample.check_iff` — a sample is flagged exactly when one of its texts is.
-/

namespace QueryShield

/-- A value with scalar leaves, walked depth first by the screen. -/
inductive Sample where
  /-- A text leaf, read as it is. -/
  | text (s : String)
  /-- A whole number, read in decimal. -/
  | whole (n : Int)
  /-- A binary64 number, read in its shortest positional form. -/
  | real (x : Binary64)
  /-- A leaf with no text: null, a boolean, an absent option. -/
  | silent
  /-- A sequence, read item by item. -/
  | many (items : List Sample)

namespace Sample

mutual

/-- Texts of the leaves of a sample, depth first. -/
def texts : Sample → List String
  | .text s => [s]
  | .whole n => [toString n]
  | .real x => [x.plainText]
  | .silent => []
  | .many items => textsOfItems items

/-- Texts of the leaves of a sequence of samples, item by item. -/
def textsOfItems : List Sample → List String
  | [] => []
  | s :: rest => texts s ++ textsOfItems rest

end

/-- Whether some text of the sample is flagged for the given families. -/
def check (s : Sample) (families : Families) : Bool :=
  s.texts.any fun t => (Screen.inspect t families).isFlagged

theorem check_iff (s : Sample) (families : Families) :
    s.check families = true ↔ ∃ t ∈ s.texts, (Screen.inspect t families).isFlagged = true := by
  simp [check]

end Sample
end QueryShield
