import AccessList.Text.Blank

/-!
# Splitting texts and greedy word wrap

A line takes words as long as they fit.
-/

namespace AccessList.Text

/-- The pieces between the occurrences of `sep`; one more than there are occurrences. -/
def splitOn (sep : Char) : List Char → List (List Char)
  | [] => [[]]
  | c :: cs =>
    if c = sep then [] :: splitOn sep cs
    else
      match splitOn sep cs with
      | [] => [[c]]
      | p :: ps => (c :: p) :: ps

def lines (s : String) : List String := (splitOn '\n' s.toList).map String.ofList

def chunks (n : Nat) : List Char → List (List Char)
  | [] => []
  | c :: cs => (c :: cs.take n) :: chunks n (cs.drop n)
termination_by s => s.length
decreasing_by simp only [List.length_drop, List.length_cons]; omega

def flush (current : List Char) : List (List Char) := if current.isEmpty then [] else [current]

/-- Fills lines of at most `n + 1` characters with words, the first line already holding `current`. A longer
word ends the line under way and is cut into lines of its own. -/
def fill (n : Nat) (current : List Char) : List (List Char) → List (List Char)
  | [] => flush current
  | w :: ws =>
    if n + 1 < w.length then flush current ++ chunks n w ++ fill n [] ws
    else if current.isEmpty then fill n w ws
    else if n + 1 < current.length + 1 + w.length then current :: fill n w ws
    else fill n (current ++ ' ' :: w) ws

/-- Wraps every line of `text` at `width` characters, a width of 0 counting as 1. Lines without words vanish. -/
def wrap (text : String) (width : Nat) : List String :=
  (splitOn '\n' text.toList).flatMap fun line => (fill (width - 1) [] (words line)).map String.ofList

end AccessList.Text
