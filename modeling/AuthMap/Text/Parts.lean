/-! Lists cut into parts at separators: at the first of them, or at every one. -/

namespace AuthMap.Text

def cut (isSep : α → Bool) : List α → List α × Option (List α)
  | [] => ([], none)
  | c :: cs =>
    if isSep c then ([], some cs)
    else (c :: (cut isSep cs).1, (cut isSep cs).2)

/-- The parts of a list between occurrences of an element; there is always one part. -/
def splitOn [DecidableEq α] (sep : α) : List α → List (List α)
  | [] => [[]]
  | c :: cs =>
    if c = sep then [] :: splitOn sep cs
    else match splitOn sep cs with
      | [] => [[c]]
      | part :: parts => (c :: part) :: parts

theorem splitOn_ne_nil [DecidableEq α] (sep : α) (cs : List α) : splitOn sep cs ≠ [] := by
  cases cs with
  | nil => simp [splitOn]
  | cons c cs =>
    unfold splitOn
    split
    · simp
    · split <;> simp

end AuthMap.Text
