import AccessList.Rule.Basic

/-!
# Extended and inet6 filters

A term comes to one rule for every combination of source, destination, source port, destination port, protocol
and ICMP type, the source varying slowest.
-/

namespace AccessList

inductive Endpoint
  | any
  | block (p : Cidr)
deriving DecidableEq

def Endpoint.text : Endpoint → String
  | any => "any"
  | block p =>
    if p.isHost then "host " ++ p.address.text
    else
      match p.family with
      | .inet => p.network.text ++ " " ++ p.hostmask.text
      | .inet6 => p.network.text ++ "/" ++ toString p.length

/-- The endpoints of a side; none where it was declared and nothing is left of it for the family. -/
def Term.endpoints? (t : Term) (side : Side) (family : Family) : Option (List Endpoint) :=
  if (t.declared side).isEmpty then some [.any]
  else
    match t.remaining side family with
    | [] => none
    | as => some (as.map (.block ·.block))

structure ExtendedRule where
  action : Action
  protocol : String
  source : Endpoint
  sourcePorts : Option PortRange
  destination : Endpoint
  destinationPorts : Option PortRange
  icmpType : Option Nat
  options : List RuleOption
deriving DecidableEq

namespace ExtendedRule

def portText (protocol : String) : Option PortRange → String
  | none => ""
  | some r =>
    if r.isSingle then "eq " ++ Keyword.port protocol r.low
    else "range " ++ Keyword.port protocol r.low ++ " " ++ Keyword.port protocol r.high

def text (family : Family) (r : ExtendedRule) : String :=
  ruleText [
    r.action.keyword,
    r.protocol,
    r.source.text,
    portText r.protocol r.sourcePorts,
    r.destination.text,
    portText r.protocol r.destinationPorts,
    (r.icmpType.map (Keyword.icmpType family)).getD "",
    RuleOption.words r.options r.protocol]

end ExtendedRule

/-- The choices for a port of a rule: the declared ranges, pairs split, or no port at all. -/
def portChoices (ports : List PortRange) : List (Option PortRange) :=
  if ports.isEmpty then [none] else (PortRange.splitPairs ports).map some

namespace Term

def icmpCode? (family : Family) (name : String) : Option Nat :=
  (Text.unsigned? 255 name.toList).or (Icmp.code? family name)

/-- The numbers of the declared types. They need the one ICMP protocol of the family and nothing beside it. -/
def icmpCodes (t : Term) (family : Family) : Except RuleFault (List Nat) :=
  match t.protocols with
  | [p] =>
    if p ≠ "icmp" ∧ p ≠ "icmpv6" then .error (.icmpProtocols t.protocols)
    else if p ≠ Icmp.protocol family then .error (.icmpFamily p family)
    else t.icmpTypes.mapM fun name => (icmpCode? family name).elim (.error (.icmpName family name)) .ok
  | ps => .error (.icmpProtocols ps)

def icmpChoices (t : Term) (family : Family) : Except RuleFault (List (Option Nat)) :=
  if t.icmpTypes.isEmpty then .ok [none] else (t.icmpCodes family).map (·.map some)

def extendedRules (t : Term) (family : Family) (form : ProtocolForm) (action : Action)
    (sources destinations : List Endpoint) (icmpTypes : List (Option Nat)) : List ExtendedRule :=
  sources.flatMap fun source =>
    destinations.flatMap fun destination =>
      (portChoices t.sourcePorts).flatMap fun sourcePorts =>
        (portChoices t.destinationPorts).flatMap fun destinationPorts =>
          (t.protocolWords family form).flatMap fun protocol =>
            icmpTypes.map fun icmpType =>
              { action, protocol, source, sourcePorts, destination, destinationPorts, icmpType,
                options := t.ruleOptions }

end Term

namespace Scope

/-- An empty line, the name, the lines of the comments and the owner, each cut to the length of a remark. -/
def extendedRemarks (s : Scope) (t : Term) : List String :=
  let comments := t.comments ++ (t.owner.map ("Owner: " ++ ·)).toList
  let cut := fun line : String => String.ofList (line.toList.take s.config.settings.remarkMaxLength)
  "" :: (" remark " ++ t.name) :: (comments.flatMap Text.lines).map fun line => " remark " ++ cut line

def extended (s : Scope) (family : Family) (t : Term) : Except CompileError (Rendering ExtendedRule) :=
  if t.excludes s.platform then .ok (.suppressed .otherPlatform)
  else if family = .inet ∧ t.protocols.contains "icmpv6" then .ok (.suppressed .icmp6)
  else if !t.verbatims.isEmpty then .ok (.block (s.extendedRemarks t) (.verbatim (t.verbatimFor s.platform)))
  else do
    let action ← s.action t
    match t.endpoints? .source family, t.endpoints? .destination family with
    | none, _ => pure (.suppressed (.noAddresses .source family))
    | _, none => pure (.suppressed (.noAddresses .destination family))
    | some sources, some destinations =>
      let icmpTypes ← (t.icmpChoices family).mapError (.badTerm s.filter t.name)
      pure (.block (s.extendedRemarks t)
        (.rules (t.extendedRules family s.config.settings.protocolForm action sources destinations icmpTypes)))

end Scope

end AccessList
