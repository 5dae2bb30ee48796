import AccessList.Document.Reading
import AccessList.Policy.Basic

/-!
# Policies as documents

Every record may leave out fields, which then take their defaults; only verbatim text needs both of its own. Field
names that mean nothing are passed over. Blocks and port ranges come in several shapes, so everything inside one
has to be readable, even what it does not use.
-/

namespace AccessList

/-! ## Reading -/

namespace Reader

def block? : Content → Option Cidr
  | .scalar (.text s) => (Cidr.parse s).toOption
  | _ => none

def token? : Content → Option (Option String)
  | .scalar .null => some none
  | .scalar (.text s) => some (some s)
  | _ => none

def taggedFields : List String := ["address", "token"]

/-- The name of a field; a number without a minus sign counts the fields instead. -/
def taggedKey? : Content → Option String
  | .scalar (.text s) => some s
  | .scalar (.unsigned n) => some (taggedFields.getD n "")
  | _ => none

def tagged? : Content → Option Tagged
  | .map entries => do
    let entries ← entries.mapM fun (k, d) => (taggedKey? k).map (·, d)
    let fs ← known? taggedFields false entries
    pure {
      block := ← (fs.lookup "address").bind block?
      token := ← (fs.lookup "token").elim (some none) token? }
  | d => (block? d).map ({ block := · })

def tagged : Reader Tagged := fun c d => do tagged? (← content c.depth c d)

def port? : Content → Option Port
  | .scalar s => s.int?.bind fun i => if h : 0 ≤ i ∧ i.toNat < 65536 then some ⟨i.toNat, h.2⟩ else none
  | _ => none

def portRange? : Content → Option PortRange
  | .list [low, high] => do pure ⟨← port? low, ← port? high⟩
  | d => (port? d).map .single

def portRange : Reader PortRange := fun c d => do portRange? (← content c.depth c d)

def port : Reader Port := fun c d => do port? (← content c.depth c d)

def action : Reader Action := named Action.ofName?

def verbatim : Reader Verbatim := fun c d => do
  let (c, fs) ← record ["platform", "text"] false c d
  pure { platform := ← fs.require c "platform" text, text := ← fs.require c "text" text }

def termFields : List String :=
  ["name", "action", "protocol", "address", "address_exclude", "source_address", "source_address_exclude",
   "destination_address", "destination_address_exclude", "source_port", "destination_port", "icmp_type", "option",
   "verbatim", "owner", "platform", "platform_exclude", "expiration", "logging", "comment", "counter"]

def term : Reader Term := fun c d => do
  let (c, fs) ← record termFields false c d
  pure {
    name := ← fs.read c "name" "" text
    actions := ← fs.read c "action" [] (list action)
    protocols := ← fs.read c "protocol" [] (list text)
    addresses := ← fs.read c "address" [] (list tagged)
    addressExcludes := ← fs.read c "address_exclude" [] (list tagged)
    sources := ← fs.read c "source_address" [] (list tagged)
    sourceExcludes := ← fs.read c "source_address_exclude" [] (list tagged)
    destinations := ← fs.read c "destination_address" [] (list tagged)
    destinationExcludes := ← fs.read c "destination_address_exclude" [] (list tagged)
    sourcePorts := ← fs.read c "source_port" [] (list portRange)
    destinationPorts := ← fs.read c "destination_port" [] (list portRange)
    icmpTypes := ← fs.read c "icmp_type" [] (list text)
    options := ← fs.read c "option" [] (list text)
    verbatims := ← fs.read c "verbatim" [] (list verbatim)
    owner := ← fs.read c "owner" none (optional text)
    platforms := ← fs.read c "platform" [] (list text)
    platformExcludes := ← fs.read c "platform_exclude" [] (list text)
    expiration := ← fs.read c "expiration" none (optional date)
    logging := ← fs.read c "logging" false bool
    comments := ← fs.read c "comment" [] (list text)
    counter := ← fs.read c "counter" none (optional text) }

def target : Reader Target := fun c d => do
  let (c, fs) ← record ["platform", "options"] false c d
  pure { platform := ← fs.read c "platform" "" text, options := ← fs.read c "options" [] (list text) }

def header : Reader Header := fun c d => do
  let (c, fs) ← record ["target", "comment"] false c d
  pure { targets := ← fs.read c "target" [] (list target), comments := ← fs.read c "comment" [] (list text) }

def filter : Reader Filter := fun c d => do
  let (c, fs) ← record ["header", "terms"] false c d
  pure { header := ← fs.read c "header" {} header, terms := ← fs.read c "terms" [] (list term) }

def policy : Reader Policy := fun c d => do
  let (c, fs) ← record ["filters"] false c d
  pure { filters := ← fs.read c "filters" [] (list filter) }

end Reader

/-! ## Writing -/

namespace Document

def tagged (a : Tagged) : Document := record [("address", text a.block.text), ("token", optional a.token)]

def portRange (r : PortRange) : Document := list [number r.low.val, number r.high.val]

def verbatim (v : Verbatim) : Document := record [("platform", text v.platform), ("text", text v.text)]

def term (t : Term) : Document :=
  record [
    ("name", text t.name),
    ("action", texts (t.actions.map (·.name))),
    ("protocol", texts t.protocols),
    ("address", list (t.addresses.map tagged)),
    ("address_exclude", list (t.addressExcludes.map tagged)),
    ("source_address", list (t.sources.map tagged)),
    ("source_address_exclude", list (t.sourceExcludes.map tagged)),
    ("destination_address", list (t.destinations.map tagged)),
    ("destination_address_exclude", list (t.destinationExcludes.map tagged)),
    ("source_port", list (t.sourcePorts.map portRange)),
    ("destination_port", list (t.destinationPorts.map portRange)),
    ("icmp_type", texts t.icmpTypes),
    ("option", texts t.options),
    ("verbatim", list (t.verbatims.map verbatim)),
    ("owner", optional t.owner),
    ("platform", texts t.platforms),
    ("platform_exclude", texts t.platformExcludes),
    ("expiration", optional (t.expiration.map (·.text))),
    ("logging", bool t.logging),
    ("comment", texts t.comments),
    ("counter", optional t.counter)]

def target (t : Target) : Document := record [("platform", text t.platform), ("options", texts t.options)]

def header (h : Header) : Document :=
  record [("target", list (h.targets.map target)), ("comment", texts h.comments)]

def filter (f : Filter) : Document := record [("header", header f.header), ("terms", list (f.terms.map term))]

def policy (p : Policy) : Document := record [("filters", list (p.filters.map filter))]

end Document

end AccessList
