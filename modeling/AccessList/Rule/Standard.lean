import AccessList.Rule.Basic

/-!
# Standard filters

A standard filter matches the address that traffic comes from, which a term declares in its general address list,
and nothing else.
-/

namespace AccessList

structure StandardRule where
  action : Action
  /-- None matches every address. -/
  block : Option Cidr
  log : Bool
deriving DecidableEq

namespace StandardRule

def lead (filter : String) : String := if Text.isNumeric filter then "access-list " ++ filter ++ " " else " "

/-- A single address by itself, in named filters after `host`; other blocks with the mask of their host bits. -/
def blockText (numeric : Bool) : Option Cidr → String
  | none => "any"
  | some p =>
    if p.isFullLength then (if numeric then "" else "host ") ++ p.address.text
    else p.network.text ++ " " ++ p.hostmask.text

def text (filter : String) (r : StandardRule) : String :=
  lead filter ++ r.action.keyword ++ " " ++ blockText (Text.isNumeric filter) r.block ++
    if r.log then " log" else ""

end StandardRule

namespace Term

def forbiddenField? (t : Term) : Option StandardField :=
  let sided := t.sources ++ t.sourceExcludes ++ t.destinations ++ t.destinationExcludes
  if !t.protocols.isEmpty then some .protocol
  else if !t.icmpTypes.isEmpty then some .icmpType
  else if !(t.addressExcludes ++ sided).isEmpty then some .address
  else if !t.options.isEmpty then some .option
  else if !(t.sourcePorts ++ t.destinationPorts).isEmpty then some .port
  else if t.counter.isSome then some .counter
  else none

def standardRules (t : Term) (action : Action) : List StandardRule :=
  match Tagged.ofFamily .inet t.addresses with
  | [] => [{ action, block := none, log := t.logging }]
  | as => as.map fun a => { action, block := some a.block, log := t.logging }

end Term

namespace Scope

/-- Logging works, though not on every device. -/
def checkStandard (s : Scope) (t : Term) : Traced Unit :=
  match t.forbiddenField? with
  | some field => .ofExcept (.error (.standardTerm s.filter t.name field))
  | none => .tell (if t.logging then [.standardLogging s.filter t.name] else [])

def standardRemarks (s : Scope) (t : Term) : List String :=
  (t.name :: s.wrapped t).map fun line => StandardRule.lead s.filter ++ "remark " ++ line

/-- Verbatim text goes without remarks. -/
def standard (s : Scope) (t : Term) : Except CompileError (Rendering StandardRule) :=
  if t.excludes s.platform then .ok (.suppressed .otherPlatform)
  else if !t.verbatims.isEmpty then .ok (.block [] (.verbatim (t.verbatimFor s.platform)))
  else (s.action t).map fun action => .block (s.standardRemarks t) (.rules (t.standardRules action))

end Scope

end AccessList
