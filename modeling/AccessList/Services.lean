import AccessList.Policy.Load
import AccessList.Text.Wrap

/-!
# Services that a deployment may choose

Names, port lists, comments and stamps are made to suit a deployment by functions that the compiler is given.
-/

namespace AccessList

namespace Term

def wantsHighPorts (t : Term) : Bool := t.options.any fun o => "established".toList.isPrefixOf o.toList

/-- Protocols without connection state; a term without protocols stands for the whole family. -/
def stateless (t : Term) (family : Family) : List String :=
  if t.protocols.isEmpty then [family.name] else t.protocols.filter fun p => p != "tcp" && p != "udp"

def openHighPorts (t : Term) (family : Family) : Except PolicyError Term :=
  if !t.wantsHighPorts then .ok t
  else if !(t.stateless family).isEmpty then .error (.established t.name (t.stateless family))
  else .ok { t with destinationPorts := PortRange.collapse (t.destinationPorts ++ [.ephemeral]) }

end Term

def stampLines (lead : String) (date revision : Bool) : List String :=
  (["Id"] ++ (if date then ["Date"] else []) ++ (if revision then ["Revision"] else [])).map fun name =>
    lead ++ "$" ++ name ++ ":$"

structure Services where
  /-- The name of a term as far as the device takes it. -/
  truncateName : String → String
  /-- A term as it is to be rendered for a family, or none where it does not apply. -/
  prepare : Term → Family → Except PolicyError (Option Term)
  wrapComment : String → Nat → List String
  stamp : String → (date revision : Bool) → List String

namespace Services

def plain : Services where
  truncateName name := name
  prepare t _ := .ok (some t)
  wrapComment := Text.wrap
  stamp := stampLines

def standard (nameLength : Nat) : Services :=
  { plain with
    truncateName := fun name => String.ofList (name.toList.take nameLength)
    prepare := fun t family => (t.openHighPorts family).map some }

def dropping : Services := { plain with prepare := fun _ _ => .ok none }

end Services

end AccessList
