import AccessList.Rule.Extended
import AccessList.Rule.ObjectGroup
import AccessList.Proofs.Text.Spacing

/-!
# The parts of a rule line

Extended and object-group filters put their rule lines together alike: an action, a protocol, the clauses of the two
sides and the options that apply to the protocol, every word behind one space. The parts of a line are written out here
apart from the functions that print it.
-/

namespace AccessList

structure RuleParts where
  action : String
  protocol : String
  clauses : List String
  options : List RuleOption

def RuleParts.line (parts : RuleParts) : String :=
  Text.spaced parts.action ++ (Text.spaced parts.protocol ++
    (String.join (parts.clauses.map Text.spaced) ++ String.join (parts.options.map (" " ++ ·.word))))

/-! ## Options -/

namespace RuleOption

theorem words_words (os : List RuleOption) (protocol : String) :
    Text.words (words os protocol).toList = (os.filter (·.applies protocol)).map (·.word.toList) := by
  have hword : ∀ o : RuleOption, Text.words o.word.toList = [o.word.toList] := by
    intro o
    cases o <;> decide
  rw [words, Text.words_intercalate, List.flatMap_map, List.map_eq_flatMap]
  simp only [hword]

theorem spaced_words (os : List RuleOption) (protocol : String) :
    Text.spaced (words os protocol) = String.join ((os.filter (·.applies protocol)).map (" " ++ ·.word)) := by
  apply String.toList_inj.mp
  rw [Text.toList_spaced, words_words, String.toList_join, List.flatMap_map, List.flatMap_map]
  simp only [String.toList_append]
  rfl

end RuleOption

/-! ## Lines of extended filters -/

namespace ExtendedRule

def portClause (protocol : String) : Option PortRange → List String
  | none => []
  | some r =>
    if r.low = r.high then ["eq", Keyword.port protocol r.low]
    else ["range", Keyword.port protocol r.low, Keyword.port protocol r.high]

theorem spaced_portText (protocol : String) (ports : Option PortRange) :
    Text.spaced (portText protocol ports) = String.join ((portClause protocol ports).map Text.spaced) := by
  have heq := @Text.spaced_lead "eq " "eq" (by decide +kernel)
  have hrange := @Text.spaced_lead "range " "range" (by decide +kernel)
  cases ports with
  | none => simp [portText, portClause, Text.spaced_empty]
  | some r =>
    by_cases h : r.low = r.high
    · simp [portText, portClause, PortRange.isSingle, h, heq]
    · rw [portText, if_neg (by simp [PortRange.isSingle, h]), Text.spaced_append, hrange, String.append_assoc]
      simp [portClause, h]

def applied (r : ExtendedRule) : List RuleOption := r.options.filter (·.applies r.protocol)

def parts (family : Family) (r : ExtendedRule) : RuleParts where
  action := r.action.keyword
  protocol := r.protocol
  clauses := r.source.text :: portClause r.protocol r.sourcePorts ++
    r.destination.text :: portClause r.protocol r.destinationPorts ++
    (r.icmpType.map (Keyword.icmpType family)).toList
  options := r.applied

theorem text_eq_line (family : Family) (r : ExtendedRule) : r.text family = (r.parts family).line := by
  have hicmp : Text.spaced ((r.icmpType.map (Keyword.icmpType family)).getD "") =
      String.join ((r.icmpType.map (Keyword.icmpType family)).toList.map Text.spaced) := by
    cases r.icmpType <;> simp [Text.spaced_empty]
  rw [text, ruleText_eq]
  simp [RuleParts.line, parts, applied, spaced_portText, RuleOption.spaced_words, hicmp, String.append_assoc]

end ExtendedRule

/-! ## Lines of object-group filters -/

namespace GroupRule

def portClause : Option PortRange → List String
  | none => []
  | some r => ["portgroup", r.text]

theorem spaced_portText (ports : Option PortRange) :
    Text.spaced (portText ports) = String.join ((portClause ports).map Text.spaced) := by
  have hlead := @Text.spaced_lead "portgroup " "portgroup" (by decide +kernel)
  cases ports with
  | none => simp [portText, portClause, Text.spaced_empty]
  | some r => simp [portText, portClause, hlead]

def parts (r : GroupRule) : RuleParts where
  action := r.action.keyword
  protocol := r.protocol
  clauses := ["addrgroup", r.source] ++ portClause r.sourcePorts ++ ["addrgroup", r.destination] ++
    portClause r.destinationPorts
  options := r.options.filter (·.applies r.protocol)

theorem text_eq_line (r : GroupRule) : r.text = r.parts.line := by
  rw [text, ruleText_eq]
  simp [RuleParts.line, parts, spaced_portText, RuleOption.spaced_words, String.append_assoc]

end GroupRule

end AccessList
