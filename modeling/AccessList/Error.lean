import AccessList.FilterType
import AccessList.Policy.Load

/-!
# Errors of the generator

Every error is a cause; its text is a function of it. A policy renders completely or not at all.
-/

namespace AccessList

inductive StandardField
  | protocol
  | icmpType
  | address
  | option
  | port
  | counter
deriving DecidableEq

namespace StandardField

def name : StandardField → String
  | protocol => "protocol"
  | icmpType => "icmp-type"
  | address => "address"
  | option => "option"
  | port => "port"
  | counter => "counter"

def reason : StandardField → String
  | protocol => "Standard ACLs cannot specify protocols"
  | icmpType => "ICMP Type specifications are not permissible in standard ACLs"
  | address => "Standard ACLs cannot use source or destination addresses"
  | option => "Standard ACLs prohibit use of options"
  | port => "Standard ACLs prohibit use of port numbers"
  | counter => "Counters are not implemented in standard ACLs"

end StandardField

inductive RuleFault
  | noAction
  | icmpProtocols (protocols : List String)
  | icmpFamily (protocol : String) (family : Family)
  | icmpName (family : Family) (name : String)
deriving DecidableEq

def RuleFault.message : RuleFault → String
  | noAction => "term has no action"
  | icmpProtocols protocols =>
    "icmp-type requires a single icmp or icmpv6 protocol, found " ++ Text.quoteList protocols
  | icmpFamily protocol family => "icmp-type with protocol " ++ protocol ++ " cannot render for " ++ family.name
  | icmpName family name => "unknown " ++ family.name ++ " icmp-type " ++ name

inductive CompileError
  | unsupportedType (filter type platform : String)
  | reservedNumber (filter : String) (type : FilterType)
  | unnamedFilter (platform : String)
  | standardTerm (filter term : String) (field : StandardField)
  | badTerm (filter term : String) (fault : RuleFault)
  | policy (cause : PolicyError)
  | settings (path : String)
  | io (path : String) (cause : IoError)
deriving DecidableEq

namespace CompileError

def reservation (type : FilterType) : String :=
  if type = .standard then "Standard access lists must be numeric in the range of 1-99 or 1300-1999."
  else "Access lists between 1-99 and 1300-1999 are reserved for standard ACLs"

def message : CompileError → String
  | unsupportedType filter type platform =>
    "access list type " ++ type ++ " not supported by " ++ platform ++ " in filter " ++ filter ++
      " (good types: " ++ ", ".intercalate FilterSelection.allowed ++ ")"
  | reservedNumber filter type => "filter " ++ filter ++ " (" ++ type.name ++ "): " ++ reservation type
  | unnamedFilter platform => "header targeting " ++ platform ++ " has no filter name"
  | standardTerm filter term field =>
    "standard access list " ++ filter ++ ", term " ++ term ++ ": " ++ field.reason
  | badTerm filter term fault => "filter " ++ filter ++ ", term " ++ term ++ ": " ++ fault.message
  | policy cause => cause.message
  | settings path => "Invalid generator configuration '" ++ path ++ "'"
  | io path cause => "Failed to write '" ++ path ++ "': " ++ cause.message

def source? : CompileError → Option IoError
  | policy (.io _ cause) => some cause
  | io _ cause => some cause
  | _ => none

def isUnsupportedList : CompileError → Bool
  | unsupportedType .. | reservedNumber .. => true
  | _ => false

def isStandardTerm : CompileError → Bool
  | standardTerm .. => true
  | _ => false

end CompileError

/-- A number belongs to standard lists or not; object groups and inet6 filters may go by any number. -/
def FilterType.checkName (type : FilterType) (filter : String) : Except CompileError Unit :=
  match if Text.isNumeric filter then Text.digits? 10 filter.toList else none with
  | none => .ok ()
  | some n =>
    if (type = .extended ∧ isStandardNumber n) ∨ (type = .standard ∧ ¬isStandardNumber n) then
      .error (.reservedNumber filter type)
    else .ok ()

end AccessList
