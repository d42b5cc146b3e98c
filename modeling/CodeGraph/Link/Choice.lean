import CodeGraph.Declaration

/-!
# Choosing among declarations of one name

A name in a file may be that of several declarations.  `bestMatch` takes the first one of the same
file, else of the same language, else without an owner, else the first; `rank` says how close a
candidate is in this order.
-/

namespace CodeGraph

/-- The declaration that a name in the file of `source` stands for; a single candidate is taken as
it is. -/
def bestMatch (source : Declaration) : List Declaration → Option Declaration
  | [] => none
  | [only] => some only
  | candidates =>
    (candidates.find? fun c => c.path = source.path).or <|
      (candidates.find? fun c => c.language = source.language).or <|
        (candidates.find? fun c => c.owner = none).or candidates.head?

/-- The general rule takes a single candidate, too. -/
theorem bestMatch_eq (source : Declaration) (candidates : List Declaration) :
    bestMatch source candidates =
      ((candidates.find? fun c => c.path = source.path).or <|
        (candidates.find? fun c => c.language = source.language).or <|
          (candidates.find? fun c => c.owner = none).or candidates.head?) := by
  match candidates with
  | [] => rfl
  | [only] =>
    simp only [bestMatch, List.find?_singleton, List.head?_cons]
    split
    · rfl
    · split
      · rfl
      · split <;> rfl
  | _ :: _ :: _ => rfl

/-- How close a candidate is to `source`: the smaller, the closer. -/
@[grind =]
def rank (source candidate : Declaration) : Nat :=
  if candidate.path = source.path then 0
  else if candidate.language = source.language then 1
  else if candidate.owner = none then 2
  else 3

end CodeGraph
