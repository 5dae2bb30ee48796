import AccessList.Net.Address
import AccessList.Text.Numeral

/-!
# The text of addresses

IPv4 addresses are dotted quads without leading zeros. An IPv6 address is written in lowercase, with `::` for
its first longest run of two or more zero groups, and with a dotted quad only under `::ffff:0:0/96`. Reading
also takes uppercase, leading zeros within four digits, any place for `::` and a dotted quad as the last two
groups.
-/

namespace AccessList

inductive AddressError
  | badFamily (text : String)
  | badAddress (text : String)
  | badBlock (text : String)
  | tooLong (length max : Nat)
deriving DecidableEq

def AddressError.message : AddressError → String
  | .badFamily text => "invalid address family: " ++ text ++ " (expected inet or inet6)"
  | .badAddress text => "invalid IP address format: " ++ text
  | .badBlock text => "invalid IP prefix format: " ++ text
  | .tooLong length max =>
    "invalid IP prefix format: prefix length " ++ toString length ++ " exceeds maximum " ++ toString max ++
      " for address type"

def Family.parse (s : String) : Except AddressError Family :=
  (Family.ofText? s).elim (.error (.badFamily s)) .ok

namespace Address

open Text

/-! ## Writing -/

def decimal (n : Nat) : List Char := Nat.toDigits 10 n

def hexadecimal (n : Nat) : List Char := Nat.toDigits 16 n

def quadText (bits : Nat) : List Char := ['.'].intercalate ((groups 256 4 bits).map decimal)

def groupsText (gs : List Nat) : List Char := [':'].intercalate (gs.map hexadecimal)

def zeros (gs : List Nat) : Nat := (gs.takeWhile (· == 0)).length

def zeroRun (i : Nat) : List Nat → Nat × Nat
  | [] => (i, 0)
  | g :: gs =>
    let later := zeroRun (i + 1) gs
    if later.2 ≤ zeros (g :: gs) then (i, zeros (g :: gs)) else later

def text6 (bits : Nat) : List Char :=
  if bits / Family.inet.count = 0xFFFF then "::ffff:".toList ++ quadText (bits % Family.inet.count)
  else
    let gs := groups 65536 8 bits
    let run := zeroRun 0 gs
    if 1 < run.2 then groupsText (gs.take run.1) ++ "::".toList ++ groupsText (gs.drop (run.1 + run.2))
    else groupsText gs

def chars (a : Address) : List Char :=
  match a.family with
  | .inet => quadText a.bits
  | .inet6 => text6 a.bits

def text (a : Address) : String := String.ofList a.chars

/-! ## Reading -/

/-- Reads a number of at most `most` digits; a zero may lead others only where `padded`. -/
def number? (base most : Nat) (padded : Bool) (s : List Char) : Option (Nat × List Char) :=
  let run := s.takeWhile fun c => (digit? base c).isSome
  if most < run.length || (!padded && run.head? == some '0' && 1 < run.length) then none
  else (digits? base run).map (·, s.dropWhile fun c => (digit? base c).isSome)

def item? {α : Type} (sep : Char) (first : Bool) (read : List Char → Option (α × List Char)) (s : List Char) :
    Option (α × List Char) :=
  if first then read s
  else
    match s with
    | c :: r => if c = sep then read r else none
    | [] => none

def octets? : Nat → Bool → List Char → Option (List Nat × List Char)
  | 0, _, s => some ([], s)
  | n + 1, first, s => do
    let (octet, s) ← item? '.' first (number? 10 3 false) s
    if 255 < octet then none
    else
      let (rest, s) ← octets? n false s
      pure (octet :: rest, s)

def quad? (s : List Char) : Option (Nat × List Char) :=
  (octets? 4 true s).map fun (os, r) => (ofGroups 256 os, r)

/-- Reads up to `n` groups as far as they go; the flag tells whether a dotted quad ended them. -/
def groups? : Nat → Bool → List Char → List Nat × Bool × List Char
  | 0, _, s => ([], false, s)
  | n + 1, first, s =>
    match if n = 0 then none else item? ':' first quad? s with
    | some (q, r) => ([q / 65536, q % 65536], true, r)
    | none =>
      match item? ':' first (number? 16 4 true) s with
      | some (g, r) =>
        let (gs, quad, r) := groups? n false r
        (g :: gs, quad, r)
      | none => ([], false, s)

def bits6? (s : List Char) : Option Nat :=
  let (front, quad, r) := groups? 8 true s
  if front.length = 8 then if r.isEmpty then some (ofGroups 65536 front) else none
  else if quad then none
  else
    match r with
    | ':' :: ':' :: r =>
      let (back, _, r) := groups? (7 - front.length) true r
      let gap := List.replicate (8 - front.length - back.length) 0
      if r.isEmpty then some (ofGroups 65536 (front ++ gap ++ back)) else none
    | _ => none

def ofChars? (s : List Char) : Option Address :=
  if s.contains ':' then (bits6? s).bind (ofBits? .inet6)
  else
    match quad? s with
    | some (q, []) => ofBits? .inet q
    | _ => none

def parse (s : String) : Except AddressError Address :=
  (ofChars? s.toList).elim (.error (.badAddress s)) .ok

end Address

end AccessList
