import AccessList.Document.Basic
import AccessList.Document.Double

/-!
# What scalars stand for

A scalar without quotes may be a literal, a number or plain text; the format decides. A number that neither 64
bits nor a double can hold may have no reading at all.
-/

namespace AccessList

inductive Scalar
  | null
  | bool (b : Bool)
  /-- Written without a minus sign, in 64 bits. -/
  | unsigned (n : Nat)
  /-- Written with a minus sign, in 64 bits. -/
  | signed (i : Int)
  | real
  | text (s : String)
deriving DecidableEq

namespace Scalar

def int? : Scalar → Option Int
  | unsigned n => some n
  | signed i => some i
  | _ => none

def takeDigits (s : List Char) : List Char × List Char := (s.takeWhile Char.isDigit, s.dropWhile Char.isDigit)

def exponent? : List Char → Option Int
  | [] => some 0
  | e :: r =>
    if e = 'e' ∨ e = 'E' then
      match r with
      | '-' :: ds => (Text.digits? 10 ds).map fun n => -n
      | '+' :: ds => (Text.digits? 10 ds).map fun n => n
      | ds => (Text.digits? 10 ds).map fun n => n
    else none

def decimal? (s : List Char) : Option Decimal :=
  let (whole, r) := takeDigits s
  let (fraction, r) := match r with
    | '.' :: r => takeDigits r
    | r => ([], r)
  if whole.isEmpty && fraction.isEmpty then none else (exponent? r).map (⟨whole, fraction, ·⟩)

/-! ## JSON -/

/-- JSON text holds literals and numbers without quotes; a negative zero is no integer. -/
def ofJson (raw : String) : Option Scalar :=
  match raw with
  | "null" => some null
  | "true" => some (bool true)
  | "false" => some (bool false)
  | _ =>
    let (negative, s) := match raw.toList with
      | '-' :: s => (true, s)
      | s => (false, s)
    match Text.digits? 10 s with
    | some n =>
      if !negative && n < 0x10000000000000000 then some (unsigned n)
      else if negative && 0 < n && n ≤ 0x8000000000000000 then some (signed (-n))
      else if (⟨s, [], 0⟩ : Decimal).overflows then none
      else some real
    | none =>
      match decimal? s with
      | some d => if d.overflows then none else some real
      | none => none

/-! ## YAML -/

def isNullWord (raw : String) : Bool := ["~", "null", "Null", "NULL"].contains raw

def boolWord? (raw : String) : Option Bool :=
  if ["true", "True", "TRUE"].contains raw then some true
  else if ["false", "False", "FALSE"].contains raw then some false
  else none

/-- Digits after a leading zero make text, not a number. -/
def isPadded : List Char → Bool
  | '0' :: d :: ds => (d :: ds).all Char.isDigit
  | _ => false

def magnitude? (s : List Char) : Option Nat :=
  match s with
  | '0' :: 'x' :: ds => Text.digits? 16 ds
  | '0' :: 'o' :: ds => Text.digits? 8 ds
  | '0' :: 'b' :: ds => Text.digits? 2 ds
  | s => if isPadded s then none else Text.digits? 10 s

def splitSign : List Char → Bool × List Char
  | '-' :: s => (true, s)
  | '+' :: s => (false, s)
  | s => (false, s)

/-- An integer of up to 128 bits: whether there is a minus sign, and the number after the sign. -/
def integer? (s : List Char) : Option (Bool × Nat) :=
  let (negative, s) := splitSign s
  (magnitude? s).bind fun n =>
    if n ≤ (if negative then Nat.pow 2 127 else Nat.pow 2 128 - 1) then some (negative, n) else none

def narrow? : Bool × Nat → Option Scalar
  | (false, n) => if n < 0x10000000000000000 then some (unsigned n) else none
  | (true, n) => if n ≤ 0x8000000000000000 then some (signed (-n)) else none

def isReal (s : List Char) : Bool :=
  let after := (splitSign s).2
  (decimal? after).any (!·.exceeds) || [".inf", ".Inf", ".INF"].contains (String.ofList after) ||
    [".nan", ".NaN", ".NAN"].contains (String.ofList s)

/-- A scalar without quotes. Integers between 64 and 128 bits cannot be read; beyond that, and beyond the doubles,
digits are text. -/
def ofYaml (raw : String) : Option Scalar :=
  if raw.isEmpty || isNullWord raw then some null
  else
    match boolWord? raw, integer? raw.toList with
    | some b, _ => some (bool b)
    | none, some i => narrow? i
    | none, none => some (if !isPadded (splitSign raw.toList).2 && isReal raw.toList then real else text raw)

def coreTag (name : String) : String := "tag:yaml.org,2002:" ++ name

def isLocalTag (tag : String) : Bool := tag.toList.head? == some '!'

/-- A scalar under a tag; the tags of the core that name no other type make text. -/
def ofTyped (tag raw : String) : Option Scalar :=
  if tag = coreTag "bool" then (boolWord? raw).map bool
  else if tag = coreTag "int" then (integer? raw.toList).bind narrow?
  else if tag = coreTag "float" then if isReal raw.toList then some real else none
  else if tag = coreTag "null" then if isNullWord raw then some null else none
  else some (text raw)

def of? (format : Format) (style : Style) (raw : String) : Option Scalar :=
  match style, format with
  | .plain, .json => ofJson raw
  | .plain, .yaml => ofYaml raw
  | _, _ => some (text raw)

end Scalar

end AccessList
