import AccessList.Document.Basic
import AccessList.Text.Numeral

/-!
# YAML tokens

Characters carry their position, so that reading is recursion on a list. Here are the tokens and the readers of
scalars: plain, in quotes, and in blocks of lines. Tags and directives are read in `Yaml.Tag`.
-/

namespace AccessList.Yaml

inductive Token
  /-- A directive that says which version of YAML follows. -/
  | version (major minor : Nat)
  /-- A directive that says what a handle in tags is short for; nothing where octets in it make no text. -/
  | handle (name : String) (stands : Option String)
  | documentStart
  | documentEnd
  | blockSequence
  | blockMapping
  | blockEnd
  | flowSequence
  | flowSequenceEnd
  | flowMapping
  | flowMappingEnd
  | entry
  | comma
  | key
  | value
  | anchor (name : String)
  | reference (name : String)
  /-- A tag: its handle, empty where the rest is the tag itself, and the rest, if it is text. -/
  | tag (handle : String) (rest : Option String)
  | scalar (style : Style) (s : String)

structure Mark where
  index : Nat
  line : Nat
  column : Nat

abbrev Input := List (Char × Mark)

/-! ## Characters -/

def isBreak (c : Char) : Bool := c == '\n' || c == '\u2028' || c == '\u2029'

def isGap (c : Char) : Bool := c == ' ' || c == '\t'

def isNameChar (c : Char) : Bool := c.isAlphanum || c == '_' || c == '-'

/-- The mark of byte order; one at the start of a line is no part of the text. -/
def isOrderMark (c : Char) : Bool := c == '\uFEFF'

def isFlowMark (c : Char) : Bool := c == ',' || c == '[' || c == ']' || c == '\x7b' || c == '\x7d'

def isAllowed (c : Char) : Bool :=
  let n := c.toNat
  n == 0x9 || n == 0xA || n == 0xD || (0x20 ≤ n && n ≤ 0x7E) || n == 0x85 || (0xA0 ≤ n && n ≤ 0xFFFD) ||
    0x10000 ≤ n

def plainBreaks : List Char → List Char
  | '\r' :: '\n' :: r => '\n' :: plainBreaks r
  | '\r' :: r => '\n' :: plainBreaks r
  | '\u0085' :: r => '\n' :: plainBreaks r
  | c :: r => c :: plainBreaks r
  | [] => []

def Mark.after (m : Mark) (c : Char) : Mark :=
  if isBreak c then ⟨m.index + 1, m.line + 1, 0⟩ else ⟨m.index + 1, m.line, m.column + 1⟩

def locate (m : Mark) : List Char → Input
  | [] => []
  | c :: r => (c, m) :: locate (m.after c) r

def input (s : String) : Option Input :=
  if s.toList.all isAllowed then some (locate ⟨0, 0, 0⟩ (plainBreaks s.toList)) else none

def atBlank : Input → Bool
  | [] => true
  | (c, _) :: _ => isGap c || isBreak c

def atChar (p : Char → Bool) : Input → Bool
  | [] => false
  | (c, _) :: _ => p c

def span (p : Char → Bool) (s : Input) : List Char × Input :=
  ((s.takeWhile (p ·.1)).map (·.1), s.dropWhile (p ·.1))

def skipGaps (s : Input) : Input := s.dropWhile (isGap ·.1)

def lineEnd? (s : Input) : Option Input :=
  let s := skipGaps s
  let s := if atChar (· == '#') s then s.dropWhile (!isBreak ·.1) else s
  if atBlank s then some s else none

def atDocumentMark : Input → Bool
  | (a, m) :: (b, _) :: (c, _) :: r =>
    m.column == 0 && ((a == '-' && b == '-' && c == '-') || (a == '.' && b == '.' && c == '.')) && atBlank r
  | _ => false

/-- Left of column `n`; the end of the text is left of no column. -/
def isLeftOf (n : Int) : Input → Bool
  | [] => false
  | (_, m) :: _ => m.column < n

/-! ## Gaps inside scalars -/

/-- The gap that ends here: its blanks if it holds no line end, otherwise its line ends. A tab may not stand for
indentation left of column `n`. -/
def gap? (n : Int) (blanks breaks : List Char) : Input → Option (List Char × List Char × Input)
  | (c, m) :: r =>
    if isGap c then
      if breaks.isEmpty then gap? n (blanks ++ [c]) [] r
      else if c == '\t' && m.column < n then none
      else gap? n [] breaks r
    else if isBreak c then gap? n [] (breaks ++ [c]) r
    else some (blanks, breaks, (c, m) :: r)
  | [] => some (blanks, breaks, [])

/-- One newline folds to a space; of more, the first is dropped. -/
def fold : List Char → List Char
  | [] => []
  | b :: bs => if b = '\n' then (if bs.isEmpty then [' '] else bs) else b :: bs

def joinGap (blanks breaks : List Char) : List Char := if breaks.isEmpty then blanks else fold breaks

/-! ## Plain scalars -/

def plainRun? (inFlow : Bool) : Input → Option (List Char × Input)
  | [] => some ([], [])
  | (c, m) :: r =>
    if isGap c || isBreak c then some ([], (c, m) :: r)
    else if inFlow && c == ':' && atChar (fun d => isFlowMark d || d == '?') r then none
    else if (c == ':' && atBlank r) || (inFlow && isFlowMark c) then some ([], (c, m) :: r)
    else (plainRun? inFlow r).map fun (cs, r) => (c :: cs, r)

def plain? (inFlow : Bool) (n : Int) : Nat → Input → Option (List Char × Bool × Input)
  | 0, _ => none
  | fuel + 1, s =>
    if atDocumentMark s || atChar (· == '#') s then some ([], false, s)
    else do
      let (run, r) ← plainRun? inFlow s
      if r.isEmpty || !atBlank r then pure (run, false, r)
      else
        let (blanks, breaks, r) ← gap? n [] [] r
        if !inFlow && isLeftOf n r then pure (run, !breaks.isEmpty, r)
        else
          let (more, broken, r) ← plain? inFlow n fuel r
          if more.isEmpty then pure (run, !breaks.isEmpty, r)
          else pure (run ++ joinGap blanks breaks ++ more, broken, r)

/-! ## Quoted scalars -/

def escape? : Char → Option Char
  | '0' => some '\x00'
  | 'a' => some '\x07'
  | 'b' => some '\x08'
  | 't' => some '\t'
  | '\t' => some '\t'
  | 'n' => some '\n'
  | 'v' => some '\x0b'
  | 'f' => some '\x0c'
  | 'r' => some '\r'
  | 'e' => some '\x1b'
  | ' ' => some ' '
  | '"' => some '"'
  | '/' => some '/'
  | '\\' => some '\\'
  | 'N' => some '\u0085'
  | '_' => some '\u00A0'
  | 'L' => some '\u2028'
  | 'P' => some '\u2029'
  | _ => none

def escapeDigits? : Char → Option Nat
  | 'x' => some 2
  | 'u' => some 4
  | 'U' => some 8
  | _ => none

def charOf? (n : Nat) : Option Char := if n.isValidChar then some (Char.ofNat n) else none

/-- Characters up to a blank or the closing quote; the flag tells of an escaped line end. -/
def doubleRun? : Nat → Input → Option (List Char × Bool × Input)
  | 0, _ => none
  | fuel + 1, s =>
    match s with
    | [] => some ([], false, [])
    | (c, m) :: r =>
      if isGap c || isBreak c || c == '"' then some ([], false, (c, m) :: r)
      else if c == '\\' then
        match r with
        | [] => none
        | (e, _) :: r =>
          if isBreak e then some ([], true, r)
          else do
            let (d, r) ← match escapeDigits? e with
              | some k =>
                let ds := (r.take k).map (·.1)
                if ds.length < k then none else ((Text.digits? 16 ds).bind charOf?).map (·, r.drop k)
              | none => (escape? e).map (·, r)
            let (cs, escaped, r) ← doubleRun? fuel r
            pure (d :: cs, escaped, r)
      else (doubleRun? fuel r).map fun (cs, escaped, r) => (c :: cs, escaped, r)

/-- Characters up to a blank or the closing quote; two quotes stand for one. -/
def singleRun : Input → List Char × Input
  | (c, m) :: (d, n) :: r =>
    if isGap c || isBreak c then ([], (c, m) :: (d, n) :: r)
    else if c == '\x27' then
      if d == '\x27' then
        let (cs, r) := singleRun r
        ('\x27' :: cs, r)
      else ([], (c, m) :: (d, n) :: r)
    else
      let (cs, r) := singleRun ((d, n) :: r)
      (c :: cs, r)
  | [(c, m)] => if isGap c || isBreak c || c == '\x27' then ([], [(c, m)]) else ([c], [])
  | [] => ([], [])

def run? (double : Bool) (n : Nat) (s : Input) : Option (List Char × Bool × Input) :=
  if double then doubleRun? n s
  else
    let (cs, r) := singleRun s
    some (cs, false, r)

/-- The rest of a quoted scalar and its closing quote; `fuel` exceeds the length of the text. -/
def quoted? (double : Bool) : Nat → Input → Option (List Char × Input)
  | 0, _ => none
  | fuel + 1, s =>
    if atDocumentMark s || s.isEmpty then none
    else do
      let (run, escaped, r) ← run? double (fuel + 1) s
      if !escaped && atChar (· == if double then '"' else '\x27') r then pure (run, r.drop 1)
      else
        let (blanks, breaks, r) ← gap? 0 [] (if escaped then ['\n'] else []) r
        let (more, r) ← quoted? double fuel r
        pure (run ++ (if escaped then breaks.drop 1 else joinGap blanks breaks) ++ more, r)

/-! ## Block scalars -/

inductive Chomping
  | strip
  | clip
  | keep
deriving DecidableEq

def chomping? : Input → Option Chomping
  | ('-', _) :: _ => some .strip
  | ('+', _) :: _ => some .keep
  | _ => none

def increment? : Input → Option Nat
  | (c, _) :: _ => (Text.digit? 10 c).filter (0 < ·)
  | _ => none

def blockHeader (s : Input) : Chomping × Option Nat × Input :=
  match chomping? s, increment? s with
  | some c, _ =>
    match increment? (s.drop 1) with
    | some k => (c, some k, s.drop 2)
    | none => (c, none, s.drop 1)
  | none, some k =>
    match chomping? (s.drop 1) with
    | some c => (c, some k, s.drop 2)
    | none => (.clip, some k, s.drop 1)
  | none, none => (.clip, none, s)

/-- The empty lines before a line, and the deepest column reached; `n = 0` where the indentation is not known
yet. -/
def emptyLines? (n deepest : Nat) : Input → Option (List Char × Nat × Input)
  | [] => some ([], deepest, [])
  | (c, m) :: r =>
    if (n == 0 || m.column < n) && c == ' ' then emptyLines? n deepest r
    else if (n == 0 || m.column < n) && c == '\t' then none
    else if isBreak c then (emptyLines? n (max deepest m.column) r).map fun (bs, k, r) => (c :: bs, k, r)
    else some ([], max deepest m.column, (c, m) :: r)

/-- The text of the lines at column `n`. Between two lines stand `lead`, the end of the first, and `empty`, the
lines between; folding turns a single line end between lines that start with a letter into a space. -/
def blockLines? (folded : Bool) (chomp : Chomping) (n : Nat) :
    Nat → List Char → List Char → Bool → Input → Option (List Char × Input)
  | 0, _, _, _, _ => none
  | fuel + 1, lead, empty, afterBlank, s =>
    if !isLeftOf n s && isLeftOf (n + 1) s then do
      let blank := atChar isGap s
      let before :=
        if folded && lead == ['\n'] && !afterBlank && !blank then (if empty.isEmpty then [' '] else []) else lead
      let line := s.takeWhile fun (c, _) => !isBreak c
      let r := s.dropWhile fun (c, _) => !isBreak c
      let (empty', _, r') ← emptyLines? n 0 (r.drop 1)
      let (more, rest) ← blockLines? folded chomp n fuel ((r.take 1).map (·.1)) empty' blank r'
      pure (before ++ empty ++ line.map (·.1) ++ more, rest)
    else
      match chomp with
      | .strip => some ([], s)
      | .clip => some (lead, s)
      | .keep => some (lead ++ empty, s)

def blockScalar? (folded : Bool) (outer : Int) (s : Input) : Option (List Char × Input) := do
  let (chomp, increment, r) := blockHeader s
  let r ← lineEnd? r
  let known : Nat := match increment with
    | some k => (max outer 0).toNat + k
    | none => 0
  let (empty, deepest, r) ← emptyLines? known 0 (r.drop 1)
  let n := if known = 0 then max deepest (max (outer + 1).toNat 1) else known
  blockLines? folded chomp n (r.length + 1) [] empty false r

end AccessList.Yaml
