import AccessList.Proofs.Net.Notation
import AccessList.Proofs.Text.Words

/-!
# What rule lines match

A line matches the packets that agree with everything it writes. What it leaves out does not matter.
-/

namespace AccessList

/-- What lines tell packets apart by. The protocol is the word that a line has for it. -/
structure Packet where
  source : Address
  destination : Address
  sourcePort : Port
  destinationPort : Port
  protocol : String
  icmpCode : Nat

/-- The options do not count: they tell states of connections apart, or ask for a log. -/
structure ExtendedRule.Matches (r : ExtendedRule) (k : Packet) : Prop where
  protocol : r.protocol = k.protocol
  source : r.source.pattern.Matches k.source
  destination : r.destination.pattern.Matches k.destination
  sourcePort : ∀ ports ∈ r.sourcePorts, k.sourcePort ∈ ports
  destinationPort : ∀ ports ∈ r.destinationPorts, k.destinationPort ∈ ports
  icmpCode : ∀ code ∈ r.icmpType, code = k.icmpCode

def Rendering.rules {ρ : Type} : Rendering ρ → List ρ
  | block _ (.rules rs) => rs
  | _ => []

theorem Rendering.mem_lines {ρ : Type} {write : ρ → String} {rendering : Rendering ρ} {r : ρ}
    (hr : r ∈ rendering.rules) : write r ∈ rendering.lines write := by
  cases rendering with
  | suppressed why => cases hr
  | block remarks body =>
    cases body with
    | verbatim texts => cases hr
    | rules rs => exact List.mem_append_right _ (List.mem_map_of_mem hr)

/-! ## The words of a line -/

theorem words_ruleText (parts : List String) :
    Text.words (ruleText parts).toList = parts.flatMap fun part => Text.words part.toList := by
  rw [ruleText, Text.words_collapse, String.toList_append, show (" " : String).toList = [' '] from rfl,
    List.singleton_append, Text.words_cons_blank rfl, Text.words_intercalate]

/-- Parts that are left out leave no trace, and all others come in this order. -/
theorem ExtendedRule.words_text (family : Family) (r : ExtendedRule) :
    Text.words (r.text family).toList =
      [r.action.keyword, r.protocol, r.source.pattern.text false, portText r.protocol r.sourcePorts,
        r.destination.pattern.text false, portText r.protocol r.destinationPorts,
        (r.icmpType.map (Keyword.icmpType family)).getD "", RuleOption.words r.options r.protocol].flatMap
        fun part => Text.words part.toList := by
  rw [text, words_ruleText, Endpoint.text_eq, Endpoint.text_eq]

end AccessList
