import AccessList.Date
import AccessList.Net.Tagged
import AccessList.PortRange

/-!
# Policies

A policy is a list of filters; a filter is a header, which says what it is called on each platform, and a list of
terms. A term matches traffic and says what happens to it.
-/

namespace AccessList

inductive Action
  | accept
  | deny
  | reject
  | rejectWithTcpRst
  | next
deriving DecidableEq

structure UnknownAction where
  word : String
deriving DecidableEq

def UnknownAction.message (e : UnknownAction) : String := "Unknown term action: " ++ e.word

namespace Action

def all : List Action := [accept, deny, reject, rejectWithTcpRst, next]

def name : Action → String
  | accept => "accept"
  | deny => "deny"
  | reject => "reject"
  | rejectWithTcpRst => "reject-with-tcp-rst"
  | next => "next"

def ofName? (s : String) : Option Action := all.find? (·.name == s)

/-- Case does not matter. Lowering ASCII letters is enough: no other letter lowers to a letter of these names. -/
def ofText? (s : String) : Option Action := ofName? s.toLower

def parse (s : String) : Except UnknownAction Action := (ofText? s).elim (.error ⟨s⟩) .ok

/-- The keyword on the device, which has no reset and no way to fall through; `next` becomes a comment. -/
def keyword : Action → String
  | accept => "permit"
  | deny | reject | rejectWithTcpRst => "deny"
  | next => "! next"

end Action

structure Verbatim where
  platform : String
  text : String
deriving DecidableEq

inductive Side
  | source
  | destination
deriving DecidableEq

namespace Side

def name : Side → String
  | source => "source"
  | destination => "destination"

def ofName? (s : String) : Option Side := [source, destination].find? (·.name == s)

end Side

structure Term where
  name : String := ""
  actions : List Action := []
  protocols : List String := []
  addresses : List Tagged := []
  addressExcludes : List Tagged := []
  sources : List Tagged := []
  sourceExcludes : List Tagged := []
  destinations : List Tagged := []
  destinationExcludes : List Tagged := []
  sourcePorts : List PortRange := []
  destinationPorts : List PortRange := []
  icmpTypes : List String := []
  options : List String := []
  verbatims : List Verbatim := []
  owner : Option String := none
  platforms : List String := []
  platformExcludes : List String := []
  expiration : Option Date := none
  logging : Bool := false
  comments : List String := []
  counter : Option String := none
deriving DecidableEq

namespace Term

/-- Only the first action counts. -/
def action? (t : Term) : Option Action := t.actions.head?

def hasOption (t : Term) (option : String) : Bool := t.options.contains option

/-- A term applies to the platforms it lists, or to all where it lists none, less those it excludes. -/
def excludes (t : Term) (platform : String) : Bool :=
  (!t.platforms.isEmpty && !t.platforms.contains platform) || t.platformExcludes.contains platform

def verbatimFor (t : Term) (platform : String) : List String :=
  (t.verbatims.filter (·.platform == platform)).map (·.text)

def declared (t : Term) : Side → List Tagged
  | .source => t.sources
  | .destination => t.destinations

def excluded (t : Term) : Side → List Tagged
  | .source => t.sourceExcludes
  | .destination => t.destinationExcludes

def remaining (t : Term) (side : Side) (family : Family) : List Tagged :=
  Tagged.without (Tagged.ofFamily family (t.declared side)) (Tagged.ofFamily family (t.excluded side))

end Term

structure Target where
  platform : String := ""
  options : List String := []
deriving DecidableEq

structure Header where
  targets : List Target := []
  comments : List String := []
deriving DecidableEq

namespace Header

def platforms (h : Header) : List String := h.targets.map (·.platform)

def hasPlatform (h : Header) (platform : String) : Bool := h.platforms.contains platform

def optionsFor (h : Header) (platform : String) : List String :=
  ((h.targets.find? (·.platform == platform)).map (·.options)).getD []

def filterName? (h : Header) (platform : String) : Option String := (h.optionsFor platform).head?

end Header

structure Filter where
  header : Header := {}
  terms : List Term := []
deriving DecidableEq

structure Policy where
  filters : List Filter := []
deriving DecidableEq

def Policy.filtersFor (p : Policy) (platform : String) : List Filter :=
  p.filters.filter (·.header.hasPlatform platform)

end AccessList
