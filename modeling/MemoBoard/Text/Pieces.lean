/-! Lists cut at separators, of which nothing is kept. -/

namespace MemoBoard.Text

/-- The pieces between separators; there is one more of them than there are separators. -/
def pieces {α : Type} (isSeparator : α → Bool) : List α → List (List α)
  | [] => [[]]
  | x :: xs =>
      if isSeparator x then [] :: pieces isSeparator xs
      else
        match pieces isSeparator xs with
        | [] => [[x]]
        | piece :: others => (x :: piece) :: others

/-- What stands before the first separator, and what stands after it if there is one. -/
def cut {α : Type} (isSeparator : α → Bool) (xs : List α) : List α × Option (List α) :=
  (xs.takeWhile (!isSeparator ·),
    match xs.dropWhile (!isSeparator ·) with
    | [] => none
    | _ :: rest => some rest)

end MemoBoard.Text
