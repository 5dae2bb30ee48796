import AccessList.Text.Blank
import AccessList.Text.Numeral

/-!
# Characters in patterns

A pattern names characters by themselves, after a backslash or in a class between brackets. What it may name depends
on its mode: without Unicode all but single characters have to stay within ASCII, and only then it knows the edges
of words. Readers answer with the text that follows, and those of nested parts with their depth.
-/

namespace AccessList.Text.Pattern

structure Mode where
  /-- Blanks and comments between the parts do not count. -/
  spaced : Bool := false
  /-- Letters stand for their other case as well. -/
  caseless : Bool := false
  unicode : Bool := true

def skipBlanks (comment : Bool) : List Char → List Char
  | [] => []
  | c :: r =>
    if comment then skipBlanks (c != '\n') r
    else if isBlank c then skipBlanks false r
    else if c == '#' then skipBlanks true r
    else c :: r

def Mode.skip (m : Mode) (s : List Char) : List Char := if m.spaced then skipBlanks false s else s

/-- The character after blanks; it may be the first one of a comment. -/
def Mode.peek? (m : Mode) (s : List Char) : Option Char :=
  if m.spaced then
    match s.dropWhile isBlank with
    | '#' :: r => (r.dropWhile isBlank).head?
    | r => r.head?
  else s.head?

/-- The depth of parts side by side; a single part stands for itself. -/
def together : List Nat → Nat
  | [] => 0
  | [d] => d
  | ds => ds.foldl max 0 + 1

/-! ## After a backslash -/

inductive Atom
  /-- A character; `octet` if two hexadecimal digits stand for it. -/
  | char (c : Char) (octet : Bool)
  /-- One of several characters. -/
  | chars
  /-- A place between characters. -/
  | place

def control? : Char → Option Char
  | 'a' => some '\x07'
  | 'f' => some '\x0c'
  | 't' => some '\t'
  | 'n' => some '\n'
  | 'r' => some '\r'
  | 'v' => some '\x0b'
  | _ => none

def digitCount? : Char → Option Nat
  | 'x' => some 2
  | 'u' => some 4
  | 'U' => some 8
  | _ => none

def hexDigits? (m : Mode) : Nat → List Char → Option (List Char × List Char)
  | 0, s => some ([], s)
  | k + 1, s =>
    match s with
    | c :: r => if (digit? 16 c).isSome then (hexDigits? m k (m.skip r)).map fun (ds, r) => (c :: ds, r) else none
    | [] => none

def hexadecimal? (m : Mode) (count : Nat) (s : List Char) : Option (Atom × List Char) := do
  let (ds, r) ← hexDigits? m count (m.skip s)
  let n ← digits? 16 ds
  if n.isValidChar then pure (.char (Char.ofNat n) (count == 2), r) else none

def categoryNames : List Char := "CLMNPSZclmnpsz".toList

def category? (m : Mode) (s : List Char) : Option (Atom × List Char) :=
  match m.skip s with
  | c :: r => if m.unicode && categoryNames.contains c then some (.chars, m.skip r) else none
  | [] => none

/-- What follows a backslash. ASCII characters that are no letters or digits stand for themselves, angles for the
edges of words. -/
def escape? (m : Mode) : List Char → Option (Atom × List Char)
  | [] => none
  | c :: r =>
    match control? c, digitCount? c with
    | some d, _ => some (.char d false, r)
    | none, some count => hexadecimal? m count r
    | none, none =>
      if "dsw".toList.contains c || (m.unicode && "DSW".toList.contains c) then some (.chars, r)
      else if "pP".toList.contains c then category? m r
      else if "Az".toList.contains c || (!m.unicode && "bB<>".toList.contains c) then some (.place, r)
      else if c.toNat < 0x80 && !c.isAlphanum && c != '<' && c != '>' then some (.char c false, r)
      else none

/-! ## Classes -/

def classNames : List String :=
  ["alnum", "alpha", "ascii", "blank", "cntrl", "digit", "graph", "lower", "print", "punct", "space", "upper",
   "word", "xdigit"]

def named? : List Char → Option (Bool × List Char)
  | ':' :: r =>
    let (negated, r) := match r with
      | '^' :: r => (true, r)
      | r => (false, r)
    match r.span (· != ':') with
    | (name, ':' :: ']' :: r) => if classNames.contains (String.ofList name) then some (negated, r) else none
    | _ => none
  | _ => none

def member? (m : Mode) (s : List Char) : Option (Atom × List Char) := do
  let (a, r) ← match s with
    | '\\' :: r => escape? m r
    | c :: r => some (.char c false, r)
    | [] => none
  match a with
  | .char c _ => if m.unicode || c.toNat < 0x80 then pure (a, r) else none
  | .chars => pure (a, r)
  | .place => none

/-- A member of a class, or a range between two characters. A hyphen before another one or before the end of the
class makes no range. -/
def range? (m : Mode) (s : List Char) : Option (List Char) := do
  let (low, r) ← member? m s
  match m.skip r with
  | '-' :: t =>
    if m.peek? t = some ']' ∨ m.peek? t = some '-' then pure ('-' :: t)
    else
      match low, ← member? m (m.skip t) with
      | .char low _, (.char high _, r) => if low ≤ high then pure r else none
      | _, _ => none
  | r => pure r

/-- The members of a class after its bracket. The characters that a class leaves out are not all in ASCII. -/
def beginClass? (m : Mode) (s : List Char) : Option (List Char) :=
  match m.skip s with
  | '^' :: r => if m.unicode then some r else none
  | r => some r

/-- The depth of the operands of a class: those so far, if any, and one with the given members. -/
def operands (before : Option Nat) (members : List Nat) : Nat :=
  before.elim (together members) fun d => max d (together members) + 1

/-- The rest of a class, with the depth of what is in it; `n` bounds the number of steps. At the start hyphens, or
else a closing bracket, stand for themselves. -/
def classEnd? (m : Mode) : Nat → (before : Option Nat) → (members : List Nat) → (start : Bool) → List Char →
    Option (Nat × List Char)
  | 0, _, _, _, _ => none
  | n + 1, before, members, start, s =>
    match m.skip s with
    | [] => none
    | '[' :: r =>
      match named? r with
      | some (negated, r) => if negated && !m.unicode then none else classEnd? m n before (0 :: members) false r
      | none => do
        let (d, r) ← classEnd? m n none [] true (← beginClass? m r)
        classEnd? m n before ((d + 1) :: members) false r
    | ']' :: r =>
      if start && members.isEmpty then classEnd? m n before [0] false r else some (operands before members, r)
    | '&' :: '&' :: r | '~' :: '~' :: r => classEnd? m n (some (operands before members)) [] false r
    | s => do
      match start, s with
      | true, '-' :: r => classEnd? m n before (0 :: members) true r
      | false, '-' :: '-' :: r => classEnd? m n (some (operands before members)) [] false r
      | _, s => classEnd? m n before (0 :: members) false (← range? m s)

end AccessList.Text.Pattern
