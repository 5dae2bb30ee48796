/-!
# Blank characters, words and trimming

Words are what blanks part. Squeezing and trimming change blanks only.
-/

namespace AccessList.Text

def isBlank (c : Char) : Bool :=
  let n := c.toNat
  (9 ≤ n && n ≤ 13) || n == 0x20 || n == 0x85 || n == 0xA0 || n == 0x1680 || (0x2000 ≤ n && n ≤ 0x200A) ||
    n == 0x2028 || n == 0x2029 || n == 0x202F || n == 0x205F || n == 0x3000

/-- Puts the letter `c` before the words `ws` of `rest`: in front of the first word where `rest` starts with
it, as a word of its own otherwise. -/
def consLetter (c : Char) (rest : List Char) (ws : List (List Char)) : List (List Char) :=
  match rest, ws with
  | d :: _, w :: ws => if isBlank d then [c] :: w :: ws else (c :: w) :: ws
  | _, ws => [c] :: ws

def words : List Char → List (List Char)
  | [] => []
  | c :: cs => if isBlank c then words cs else consLetter c cs (words cs)

def squeeze : List Char → List Char
  | [] => []
  | c :: cs =>
    if isBlank c then
      match cs with
      | [] => [' ']
      | d :: _ => if isBlank d then squeeze cs else ' ' :: squeeze cs
    else c :: squeeze cs

def trimEnd : List Char → List Char
  | [] => []
  | c :: cs =>
    match trimEnd cs with
    | [] => if isBlank c then [] else [c]
    | d :: ds => c :: d :: ds

def trimStart (s : List Char) : List Char := s.dropWhile isBlank

/-- Runs of blanks become one space and the end is trimmed; a leading space stays. -/
def collapse (s : String) : String := String.ofList (trimEnd (squeeze s.toList))

end AccessList.Text
