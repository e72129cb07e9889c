/-!
# Similar words

When a word on the command line names nothing, the reader suggests the names it most likely
meant.  Closeness is the Jaro similarity: characters of the two words match when they are
equal and no further apart than half the longer length, less one; each character of the
second word matches at most once, the earliest free one.  With `m` matches, of which `t`
pairs are out of order, the similarity is `(m / |a| + m / |b| + (m - t/2) / m) / 3`, and two
empty words are fully similar.

A name is suggested when its similarity is above `0.7`.  Suggestions are listed from the least
to the most similar, names equally similar keeping their order, so the best is the last.
The similarity is kept as an exact fraction.
-/

namespace QueryShield
namespace Cli

/-- A similarity as a fraction. -/
structure Likeness where
  num : Nat
  den : Nat
deriving DecidableEq, Repr

namespace Likeness

/-- Whether `x` is at most `y`. -/
def le (x y : Likeness) : Bool := x.num * y.den ≤ y.num * x.den

/-- Whether a similarity is above `0.7`. -/
def isClose (x : Likeness) : Bool := 7 * x.den < 10 * x.num

end Likeness

/-- The characters of `a` that match one of `b`, in order, and which places of `b` matched. -/
def matchedChars (a b : List Char) : List Char × Array Bool :=
  let bs := b.toArray
  let reach := max a.length b.length / 2 - 1
  a.zipIdx.foldl (fun (found, taken) (c, i) =>
    let lo := i - reach
    let hi := min b.length (i + reach + 1)
    match (List.range' lo (hi - lo)).find? (fun j => bs[j]? == some c && !(taken[j]?.getD true)) with
    | some j => (found ++ [c], taken.setIfInBounds j true)
    | none => (found, taken)) ([], Array.replicate b.length false)

/-- The Jaro similarity of two words. -/
def jaro (a b : String) : Likeness :=
  let xs := a.toList
  let ys := b.toList
  if xs.isEmpty && ys.isEmpty then ⟨1, 1⟩
  else if xs.isEmpty || ys.isEmpty then ⟨0, 1⟩
  else
    let (found, taken) := matchedChars xs ys
    let partners := (ys.zipIdx.filter fun (_, j) => taken[j]?.getD false).map (·.1)
    let m := found.length
    let t := ((found.zip partners).filter fun (x, y) => x != y).length / 2
    if m == 0 then ⟨0, 1⟩
    else
      let la := xs.length
      let lb := ys.length
      ⟨m * m * lb + m * m * la + (m - t) * la * lb, 3 * la * lb * m⟩

/-- The names close to a word, least similar first. -/
def similarNames (word : String) (names : List String) : List String :=
  let close := (names.map fun n => (jaro word n, n)).filter (·.1.isClose)
  (close.mergeSort fun x y => x.1.le y.1).map (·.2)

/-- The name most similar to a word, if one is close. -/
def closestName? (word : String) (names : List String) : Option String :=
  (similarNames word names).getLast?

end Cli
end QueryShield
