import AccessList.Net.Family
import AccessList.Text.Numeral

/-!
# Filter types

The type of a filter says how the device declares it and which family it matches.
-/

namespace AccessList

inductive FilterType
  | standard
  | extended
  | objectGroup
  | inet6
deriving DecidableEq

namespace FilterType

def all : List FilterType := [standard, extended, objectGroup, inet6]

def name : FilterType → String
  | standard => "standard"
  | extended => "extended"
  | objectGroup => "object-group"
  | inet6 => "inet6"

def ofName? (s : String) : Option FilterType := all.find? (·.name == s)

def family : FilterType → Family
  | inet6 => .inet6
  | _ => .inet

/-- The lines that reset a filter on the device. A numbered standard list comes about with its first rule. -/
def lifecycle (type : FilterType) (filter : String) : List String :=
  match type with
  | standard =>
    if Text.isNumeric filter then ["no access-list " ++ filter]
    else ["no ip access-list standard " ++ filter, "ip access-list standard " ++ filter]
  | extended | objectGroup => ["no ip access-list extended " ++ filter, "ip access-list extended " ++ filter]
  | inet6 => ["no ipv6 access-list " ++ filter, "ipv6 access-list " ++ filter]

def stampLead (type : FilterType) (filter : String) : String :=
  if type = standard ∧ Text.isNumeric filter then "access-list " ++ filter ++ " remark " else "remark "

end FilterType

def isStandardNumber (n : Nat) : Bool := (1 ≤ n && n ≤ 99) || (1300 ≤ n && n ≤ 1999)

/-- What a header asks for: one filter type, or the extended and the inet6 filter at once. -/
inductive FilterSelection
  | single (type : FilterType)
  | mixed
deriving DecidableEq

structure UnknownFilterType where
  word : String
deriving DecidableEq

def UnknownFilterType.message (e : UnknownFilterType) : String := "Unknown filter type: " ++ e.word

namespace FilterSelection

def allowed : List String := ["extended", "standard", "object-group", "inet6", "mixed"]

def ofText? (s : String) : Option FilterSelection :=
  if s = "mixed" then some mixed else (FilterType.ofName? s).map single

def parse (s : String) : Except UnknownFilterType FilterSelection := (ofText? s).elim (.error ⟨s⟩) .ok

def passes : FilterSelection → List FilterType
  | single type => [type]
  | mixed => [.extended, .inet6]

def passName (selection : FilterSelection) (filter : String) (pass : FilterType) : String :=
  if selection = mixed ∧ pass = .inet6 then "ipv6-" ++ filter else filter

end FilterSelection

end AccessList
