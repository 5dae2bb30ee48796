import AccessList.Document.Basic
import AccessList.Text.Numeral

/-!
# JSON text

Numbers and literals keep their text. A string that escapes half of a surrogate pair is unreadable, yet well
formed: it does no harm where nothing reads it.
-/

namespace AccessList.Json

/-! ## Writing -/

def hexDigits (n : Nat) : List Char :=
  let ds := Nat.toDigits 16 n
  List.replicate (4 - ds.length) '0' ++ ds

def writeChar (c : Char) : List Char :=
  match c with
  | '"' => ['\\', '"']
  | '\\' => ['\\', '\\']
  | '\n' => ['\\', 'n']
  | '\r' => ['\\', 'r']
  | '\t' => ['\\', 't']
  | c => if c.toNat < 0x20 then '\\' :: 'u' :: hexDigits c.toNat else [c]

def writeString (s : String) : List Char := '"' :: s.toList.flatMap writeChar ++ ['"']

mutual
/-- Without blanks between the parts. Tags are left out; what has no value of its own is written as null. -/
def write : Document → List Char
  | .scalar .plain raw => raw.toList
  | .scalar _ s => writeString s
  | .list items => '[' :: writeItems items ++ [']']
  | .map entries => '\x7b' :: writeEntries entries ++ ['\x7d']
  | .typed _ d => write d
  | .reference _ => "null".toList
  | .unreadable => "null".toList
def writeItems : List Document → List Char
  | [] => []
  | [d] => write d
  | d :: e :: ds => write d ++ ',' :: writeItems (e :: ds)
def writeEntries : List (Document × Document) → List Char
  | [] => []
  | [(k, d)] => write k ++ ':' :: write d
  | (k, d) :: e :: es => write k ++ ':' :: write d ++ ',' :: writeEntries (e :: es)
end

/-! ## Reading -/

def skipBlanks (s : List Char) : List Char := s.dropWhile fun c => c == ' ' || c == '\n' || c == '\r' || c == '\t'

def joinPairs : List Nat → Option (List Char)
  | [] => some []
  | [u] => if 0xD800 ≤ u ∧ u < 0xE000 then none else some [Char.ofNat u]
  | u :: v :: us =>
    if 0xD800 ≤ u ∧ u < 0xDC00 ∧ 0xDC00 ≤ v ∧ v < 0xE000 then
      (joinPairs us).map (Char.ofNat (0x10000 + (u - 0xD800) * 0x400 + (v - 0xDC00)) :: ·)
    else if 0xD800 ≤ u ∧ u < 0xE000 then none
    else (joinPairs (v :: us)).map (Char.ofNat u :: ·)

def escape? : Char → Option Char
  | '"' => some '"'
  | '\\' => some '\\'
  | '/' => some '/'
  | 'b' => some '\x08'
  | 'f' => some '\x0c'
  | 'n' => some '\n'
  | 'r' => some '\r'
  | 't' => some '\t'
  | _ => none

/-- Code points up to the closing quote; an escape may give half of a surrogate pair. -/
def points? : List Char → Option (List Nat × List Char)
  | [] => none
  | '"' :: r => some ([], r)
  | '\\' :: 'u' :: a :: b :: c :: d :: r => do
    let u ← Text.digits? 16 [a, b, c, d]
    let (us, rest) ← points? r
    pure (u :: us, rest)
  | '\\' :: c :: r => do
    let e ← escape? c
    let (us, rest) ← points? r
    pure (e.toNat :: us, rest)
  | c :: r =>
    if c.toNat < 0x20 then none
    else do
      let (us, rest) ← points? r
      pure (c.toNat :: us, rest)

def ofPoints (us : List Nat) : Document := (joinPairs us).elim .unreadable fun cs => .text (String.ofList cs)

def takeDigits (s : List Char) : List Char × List Char := (s.takeWhile Char.isDigit, s.dropWhile Char.isDigit)

def fraction? : List Char → Option (List Char × List Char)
  | '.' :: r =>
    let (ds, r) := takeDigits r
    if ds.isEmpty then none else some ('.' :: ds, r)
  | s => some ([], s)

def exponent? : List Char → Option (List Char × List Char)
  | s@(e :: r) =>
    if e = 'e' ∨ e = 'E' then
      let (sign, r) := match r with
        | '+' :: r => (['+'], r)
        | '-' :: r => (['-'], r)
        | r => ([], r)
      let (ds, r) := takeDigits r
      if ds.isEmpty then none else some (e :: sign ++ ds, r)
    else some ([], s)
  | [] => some ([], [])

/-- A number; a zero leads no other digits. -/
def number? (s : List Char) : Option (List Char × List Char) := do
  let (sign, s) := match s with
    | '-' :: r => (['-'], r)
    | s => ([], s)
  let (whole, s) ← match s with
    | '0' :: r => some (['0'], r)
    | s =>
      let (ds, r) := takeDigits s
      if ds.isEmpty then none else some (ds, r)
  let (fraction, s) ← fraction? s
  let (exponent, s) ← exponent? s
  pure (sign ++ whole ++ fraction ++ exponent, s)

def literals : List String := ["null", "true", "false"]

def after? (word : List Char) (s : List Char) : Option (List Char) :=
  match word, s with
  | [], s => some s
  | w :: ws, c :: cs => if w = c then after? ws cs else none
  | _ :: _, [] => none

def scalar? (s : List Char) : Option (Document × List Char) :=
  match literals.findSome? fun w => (after? w.toList s).map (w, ·) with
  | some (w, r) => some (.plain w, r)
  | none => (number? s).map fun (raw, r) => (.plain (String.ofList raw), r)

mutual
def value? : Nat → List Char → Option (Document × List Char)
  | 0, _ => none
  | n + 1, s =>
    match skipBlanks s with
    | '"' :: r => (points? r).map fun (us, r) => (ofPoints us, r)
    | '[' :: r =>
      match skipBlanks r with
      | ']' :: r => some (.list [], r)
      | r => (items? n r).map fun (ds, r) => (.list ds, r)
    | '\x7b' :: r =>
      match skipBlanks r with
      | '\x7d' :: r => some (.map [], r)
      | r => (entries? n r).map fun (es, r) => (.map es, r)
    | s => scalar? s
def items? : Nat → List Char → Option (List Document × List Char)
  | 0, _ => none
  | n + 1, s => do
    let (d, r) ← value? n s
    match skipBlanks r with
    | ']' :: r => pure ([d], r)
    | ',' :: r =>
      let (ds, r) ← items? n r
      pure (d :: ds, r)
    | _ => none
def entries? : Nat → List Char → Option (List (Document × Document) × List Char)
  | 0, _ => none
  | n + 1, s =>
    match skipBlanks s with
    | '"' :: r => do
      let (us, r) ← points? r
      match skipBlanks r with
      | ':' :: r =>
        let (d, r) ← value? n r
        match skipBlanks r with
        | '\x7d' :: r => pure ([(ofPoints us, d)], r)
        | ',' :: r =>
          let (es, r) ← entries? n r
          pure ((ofPoints us, d) :: es, r)
        | _ => none
      | _ => none
    | _ => none
end

/-- The one value of a text; every step of the reading takes at least half a character. -/
def read? (s : String) : Option Document := do
  let cs := s.toList
  let (d, r) ← value? (2 * cs.length + 2) cs
  if (skipBlanks r).isEmpty then some d else none

end AccessList.Json
