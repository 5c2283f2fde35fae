/-
# ExportDiff.Similarity.BestMatch — the record most similar to another

The closest match of a record among the keys of an index is the first one with the greatest
similarity, looked for in the order in which the keys first occurred. It is of no use where it has
nothing in common with the record, nor where it is nearly the same.
-/

import ExportDiff.FrequencyIndex
import ExportDiff.Similarity.Ratio

namespace ExportDiff

/-- A candidate and its similarity. -/
structure BestMatch where
  ratio : Ratio
  key : String
  record : Record

namespace BestMatch

/-- The share that a further candidate has to exceed. -/
def floor (best : Option BestMatch) : Ratio := best.elim Ratio.leastUseful (·.ratio)

/-- The better one of the best candidate so far and a further one; the earlier one stays on a tie. -/
def improve (key : String) (best : Option BestMatch) (candidate : String × Record) :
    Option BestMatch :=
  let ratio := Similarity.ratio key candidate.1
  if (floor best).less ratio then some ⟨ratio, candidate.1, candidate.2⟩ else best

/-- The first most similar candidate, if any is similar at all. -/
def mostSimilar (key : String) (candidates : List (String × Record)) : Option BestMatch :=
  candidates.foldl (improve key) none

end BestMatch

/-- The closest match of a record among the records of an index. -/
def FrequencyIndex.bestMatch? (index : FrequencyIndex) (r : Record) : Option BestMatch :=
  (BestMatch.mostSimilar r.key index.representatives).filter fun found =>
    found.ratio.less Ratio.nearlyIdentical

end ExportDiff
