import AccessList.Rule.Basic

/-!
# Object-group filters

Rules name groups of addresses and ports that are defined ahead of the filter. An address group goes by the token
its first block was declared under, a port group by its ends. Object groups are for IPv4.
-/

namespace AccessList

structure AddressGroup where
  token : String
  members : List Cidr
deriving DecidableEq

def AddressGroup.any : AddressGroup := ⟨"ANY", [.all .inet]⟩

def Side.groupEnding : Side → String
  | source => "-src"
  | destination => "-dst"

/-- The group of a side; none where the side was declared and nothing is left of it. -/
def Term.addressGroup? (t : Term) (side : Side) : Option AddressGroup :=
  if (t.declared side).isEmpty then some .any
  else
    match t.remaining side .inet with
    | [] => none
    | a :: as => some ⟨a.token.getD (t.name ++ side.groupEnding), (a :: as).map (·.block)⟩

/-! ## Definitions -/

inductive GroupDefinition
  | addresses (g : AddressGroup)
  | ports (r : PortRange)
deriving DecidableEq

namespace GroupDefinition

def sameName : GroupDefinition → GroupDefinition → Bool
  | addresses g, addresses h => g.token == h.token
  | ports r, ports s => r == s
  | _, _ => false

def lines : GroupDefinition → List String
  | addresses g =>
    ("object-group ip address " ++ g.token) ::
      g.members.map (fun p => " " ++ p.network.text ++ " " ++ p.netmask.text) ++ ["exit", ""]
  | ports r =>
    ["object-group ip port " ++ r.text,
     if r.isSingle then " eq " ++ toString r.low.val
     else " range " ++ toString r.low.val ++ " " ++ toString r.high.val,
     "exit", ""]

end GroupDefinition

/-- The groups that a term refers to: of the source, of the destination, of the ports of both. None where the term
comes to no rule. -/
def Term.groups (t : Term) (platform : String) : List GroupDefinition :=
  if t.excludes platform || !t.verbatims.isEmpty then []
  else
    match t.addressGroup? .source, t.addressGroup? .destination with
    | some source, some destination =>
      .addresses source :: .addresses destination :: (t.sourcePorts ++ t.destinationPorts).map .ports
    | _, _ => []

structure ObjectGroups where
  filter : String
  definitions : List GroupDefinition := []
deriving DecidableEq

namespace ObjectGroups

/-- The first definition of a name stays. -/
def define (gs : ObjectGroups) (d : GroupDefinition) : ObjectGroups :=
  if gs.definitions.any (·.sameName d) then gs else { gs with definitions := gs.definitions ++ [d] }

def add (gs : ObjectGroups) (t : Term) (platform : String) : ObjectGroups := (t.groups platform).foldl define gs

def isValid (gs : ObjectGroups) : Bool := !gs.definitions.isEmpty

def lines (gs : ObjectGroups) : List String :=
  if gs.isValid then "" :: gs.definitions.flatMap (·.lines) else []

end ObjectGroups

/-! ## Rules -/

structure GroupRule where
  action : Action
  protocol : String
  source : String
  sourcePorts : Option PortRange
  destination : String
  destinationPorts : Option PortRange
  options : List RuleOption
deriving DecidableEq

namespace GroupRule

def portText : Option PortRange → String
  | none => ""
  | some r => "portgroup " ++ r.text

def text (r : GroupRule) : String :=
  ruleText [
    r.action.keyword,
    r.protocol,
    "addrgroup",
    r.source,
    portText r.sourcePorts,
    "addrgroup",
    r.destination,
    portText r.destinationPorts,
    RuleOption.words r.options r.protocol]

end GroupRule

/-- The choices for a port group of a rule: one per declared range, or none at all. -/
def portGroupChoices (ports : List PortRange) : List (Option PortRange) :=
  if ports.isEmpty then [none] else ports.map some

def Term.groupRules (t : Term) (form : ProtocolForm) (action : Action) (source destination : AddressGroup) :
    List GroupRule :=
  (portGroupChoices t.sourcePorts).flatMap fun sourcePorts =>
    (portGroupChoices t.destinationPorts).flatMap fun destinationPorts =>
      (t.protocolWords .inet form).map fun protocol =>
        { action, protocol, source := source.token, sourcePorts, destination := destination.token,
          destinationPorts, options := t.ruleOptions }

namespace Scope

def groupRemarks (s : Scope) (t : Term) : List String :=
  "" :: (t.name :: s.wrapped t).map (" remark " ++ ·)

def objectGroup (s : Scope) (t : Term) : Except CompileError (Rendering GroupRule) :=
  if t.excludes s.platform then .ok (.suppressed .otherPlatform)
  else if !t.verbatims.isEmpty then .ok (.block (s.groupRemarks t) (.verbatim (t.verbatimFor s.platform)))
  else
    match t.addressGroup? .source, t.addressGroup? .destination with
    | some source, some destination =>
      (s.action t).map fun action =>
        .block (s.groupRemarks t) (.rules (t.groupRules s.config.settings.protocolForm action source destination))
    | _, _ => .ok (.suppressed .noGroup)

end Scope

end AccessList
