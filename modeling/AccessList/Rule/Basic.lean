import AccessList.Keyword
import AccessList.Services
import AccessList.Settings
import AccessList.Traced

/-!
# What the rule lines of all filters share

A term comes to rules or to verbatim text after its remarks, or it is suppressed. Rules are data; each type of
filter writes its own as text.
-/

namespace AccessList

structure Scope where
  filter : String
  config : Config
  services : Services

namespace Scope

def platform (s : Scope) : String := s.config.platform

def action (s : Scope) (t : Term) : Except CompileError Action :=
  t.action?.elim (.error (.badTerm s.filter t.name .noAction)) .ok

def wrapped (s : Scope) (t : Term) : List String :=
  t.comments.flatMap fun c => s.services.wrapComment c s.config.settings.commentWidth

end Scope

/-! ## Protocols -/

def Family.protocolWord : Family → String
  | inet => "ip"
  | inet6 => "ipv6"

def ProtocolForm.word (form : ProtocolForm) (protocol : String) : String :=
  if protocol = "hop-by-hop" then "hbh"
  else
    match form with
    | name => protocol
    | number => ((Protocol.number? protocol).map toString).getD protocol

def Term.protocolWords (t : Term) (family : Family) (form : ProtocolForm) : List String :=
  if t.protocols.isEmpty then [family.protocolWord] else t.protocols.map form.word

/-! ## Options -/

inductive RuleOption
  | established
  | log
deriving DecidableEq

namespace RuleOption

def word : RuleOption → String
  | established => "established"
  | log => "log"

/-- UDP has no connections to be established. -/
def applies (o : RuleOption) (protocol : String) : Bool := !(Protocol.denotes protocol "udp" && o == established)

def words (os : List RuleOption) (protocol : String) : String :=
  " ".intercalate ((os.filter (·.applies protocol)).map word)

end RuleOption

def Term.ruleOptions (t : Term) : List RuleOption :=
  let asked := t.hasOption "tcp-established" || t.hasOption "established"
  (if asked && t.protocols.any (Protocol.denotes · "tcp") then [.established] else []) ++
    if t.logging then [.log] else []

/-! ## Renderings -/

inductive Body (ρ : Type)
  | verbatim (texts : List String)
  | rules (rs : List ρ)

inductive Rendering (ρ : Type)
  | suppressed (why : Suppression)
  | block (remarks : List String) (body : Body ρ)

namespace Rendering

variable {ρ : Type}

def lines (write : ρ → String) : Rendering ρ → List String
  | suppressed _ => []
  | block remarks (.verbatim texts) => remarks ++ texts
  | block remarks (.rules rs) => remarks ++ rs.map write

def suppression? : Rendering ρ → Option Suppression
  | suppressed why => some why
  | block .. => none

end Rendering

/-- Words with a space between any two; empty words leave no trace. -/
def ruleText (words : List String) : String := Text.collapse (" " ++ " ".intercalate words)

end AccessList
