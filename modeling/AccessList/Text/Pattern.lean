import AccessList.Text.Alphanumeric
import AccessList.Text.Pattern.Class

/-!
# Patterns

A pattern is a regular expression. Nothing here matches with one; the question is which texts are patterns, when
they hold no closing curly bracket.
-/

namespace AccessList.Text.Pattern

/-! ## Groups -/

/-- A mode with some of its flags switched on, and those after a hyphen off. No flag is given twice. -/
def Mode.switch? (m : Mode) (flags : List Char) : Option Mode :=
  if flags.Nodup && flags.all ("imsURux-".toList.contains ·) && flags.getLast? != some '-' then
    let on := flags.takeWhile (· != '-')
    let set := fun c old => if flags.contains c then on.contains c else old
    some { spaced := set 'x' m.spaced, caseless := set 'i' m.caseless, unicode := set 'u' m.unicode }
  else none

def isGroupName : List Char → Bool
  | [] => false
  | c :: r => (isAlphabetic c || c == '_') && r.all fun c => isAlphanumeric c || "_.[]".toList.contains c

inductive Opening
  | group (name : Option (List Char)) (m : Mode)
  /-- No group: the mode changes to the end of the group around it. -/
  | switch (m : Mode)

def opening? (m : Mode) (s : List Char) : Option (Opening × List Char) :=
  match m.skip s with
  | '?' :: 'P' :: '<' :: r | '?' :: '<' :: r =>
    match r.span (· != '>') with
    | (name, _ :: r) => if isGroupName name then some (.group (some name) m, r) else none
    | _ => none
  | '?' :: r =>
    match r.span fun c => c != ':' && c != ')' with
    | (flags, ':' :: r) => (m.switch? flags).map fun m => (.group none m, r)
    | (flags, _ :: r) => if flags.isEmpty then none else (m.switch? flags).map fun m => (.switch m, r)
    | _ => none
  | r => some (.group none m, r)

/-! ## Patterns -/

/-- Whether an atom may stand outside of classes. Other cases without Unicode are those of ASCII. -/
def Mode.admits (m : Mode) : Atom → Bool
  | .char c octet => m.unicode || c.toNat < 0x80 || (!octet && !m.caseless)
  | _ => true

/-- The rest of a pattern, or of a group up to its parenthesis, with its depth and the names of groups so far. What
was read is given by depths: the branches before, and the parts of this one, the last of them first. After
something `repeatable` a pattern may say how often. -/
def body? : Nat → Mode → (branches parts : List Nat) → (repeatable : Bool) → (names : List (List Char)) →
    List Char → Option (Nat × List (List Char) × List Char)
  | 0, _, _, _, _, _, _ => none
  | n + 1, m, branches, parts, repeatable, names, s =>
    match m.skip s with
    | [] => some (together (together parts :: branches), names, [])
    | ')' :: r => some (together (together parts :: branches), names, ')' :: r)
    | '|' :: r => body? n m (together parts :: branches) [] false names r
    | '(' :: r => do
      match ← opening? m r with
      | (.switch m, r) => body? n m branches (0 :: parts) false names r
      | (.group name inner, r) =>
        if name.any (names.contains ·) then none
        else
          match ← body? n inner [] [] false (name.toList ++ names) r with
          | (d, names, ')' :: r) => body? n m branches ((d + 1) :: parts) true names r
          | _ => none
    | '[' :: r => do
      let (d, r) ← classEnd? m (n + 1) none [] true (← beginClass? m r)
      body? n m branches ((d + 1) :: parts) true names r
    | '\x7b' :: _ => none
    | '\\' :: r => do
      let (a, r) ← escape? m r
      if m.admits a then body? n m branches (0 :: parts) true names r else none
    | c :: r =>
      if "*+?".toList.contains c then
        match repeatable, parts with
        | true, d :: ds =>
          body? n m branches ((d + 1) :: ds) true names (if r.head? = some '?' then r.drop 1 else r)
        | _, _ => none
      else if (c == '.' && !m.unicode) || !m.admits (.char c false) then none
      else body? n m branches (0 :: parts) true names r

def maxDepth : Nat := 250

end Pattern

def isPattern (s : List Char) : Bool :=
  match Pattern.body? (s.length + 1) {} [] [] false [] s with
  | some (depth, _, []) => depth ≤ Pattern.maxDepth
  | _ => false

end AccessList.Text
