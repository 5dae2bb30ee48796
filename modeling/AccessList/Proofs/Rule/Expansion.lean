import AccessList.Proofs.Rule.GroupMeaning
import Mathlib.Data.List.ProdSigma

/-!
# Order and number of the rules of a term

The rules of a term are a product of its choices, the last factor varying fastest. The place of a rule is therefore the
number whose digits are the places of its parts, each among the choices for it.
-/

namespace AccessList

/-! ## Places in a product -/

section
variable {α β : Type} {as : List α} {bs : List β} {a : α} {b : β}

theorem getElem?_product_cons (k : Nat) : ((a :: as) ×ˢ bs)[k]? =
    if k < bs.length then bs[k]?.map (a, ·) else (as ×ˢ bs)[k - bs.length]? := by
  rw [List.product_cons, List.getElem?_append, List.length_map, List.getElem?_map]

/-- The second factor varies faster. -/
theorem getElem?_product_eq_some_iff {k : Nat} :
    (as ×ˢ bs)[k]? = some (a, b) ↔ ∃ i j, k = i * bs.length + j ∧ as[i]? = some a ∧ bs[j]? = some b := by
  induction as generalizing k with
  | nil => simp
  | cons a' as ih =>
    rw [getElem?_product_cons]
    constructor
    · intro h
      split at h
      · obtain ⟨b', hb, heq⟩ := Option.map_eq_some_iff.mp h
        cases heq
        exact ⟨0, k, by simp, rfl, hb⟩
      · obtain ⟨i, j, hij, ha, hb⟩ := ih.mp h
        refine ⟨i + 1, j, ?_, ha, hb⟩
        rw [Nat.succ_mul]
        omega
    · rintro ⟨i, j, rfl, ha, hb⟩
      obtain ⟨hj, -⟩ := List.getElem?_eq_some_iff.mp hb
      cases i with
      | zero =>
        cases ha
        rw [Nat.zero_mul, Nat.zero_add, if_pos hj, hb]
        rfl
      | succ i =>
        rw [Nat.succ_mul, if_neg (by omega)]
        exact ih.mpr ⟨i, j, by omega, ha, hb⟩

end

/-! ## Counts -/

/-- How many ports or ranges a rule may have, pairs of ports counted twice. -/
def portCount (ports : List PortRange) : Nat :=
  if ports = [] then 1 else ports.length + ports.countP fun r => r.low.val + 1 = r.high.val

def portGroupCount (ports : List PortRange) : Nat := if ports = [] then 1 else ports.length

namespace Term

def sideCount (t : Term) (side : Side) (family : Family) : Nat :=
  if t.declared side = [] then 1 else (t.remaining side family).length

def protocolCount (t : Term) : Nat := if t.protocols = [] then 1 else t.protocols.length

def icmpCount (t : Term) : Nat := if t.icmpTypes = [] then 1 else t.icmpTypes.length

end Term

theorem length_splitPairs (ports : List PortRange) :
    (PortRange.splitPairs ports).length = ports.length + ports.countP fun r => r.low.val + 1 = r.high.val := by
  induction ports with
  | nil => rfl
  | cons r ports ih =>
    rw [PortRange.splitPairs] at ih ⊢
    rw [List.flatMap_cons, List.length_append, ih, List.length_cons, List.countP_cons]
    by_cases h : r.low.val + 1 = r.high.val
    · simp [h]
      omega
    · simp [h]
      omega

theorem length_portChoices (ports : List PortRange) : (portChoices ports).length = portCount ports := by
  unfold portChoices portCount
  by_cases h : ports = []
  · simp [h]
  · rw [if_neg (mt List.isEmpty_iff.mp h), if_neg h, List.length_map, length_splitPairs]

theorem length_portGroupChoices (ports : List PortRange) : (portGroupChoices ports).length = portGroupCount ports := by
  unfold portGroupChoices portGroupCount
  by_cases h : ports = []
  · simp [h]
  · simp [h]

namespace Term

variable {t : Term} {side : Side} {family : Family} {form : ProtocolForm} {action : Action}

theorem length_endpoints? {es : List Endpoint} (h : t.endpoints? side family = some es) :
    es.length = t.sideCount side family := by
  unfold sideCount
  rcases endpoints?_eq_some_iff.mp h with ⟨hd, rfl⟩ | ⟨hd, -, rfl⟩
  · rw [if_pos hd]
    rfl
  · rw [if_neg hd, List.length_map]

theorem length_protocolWords : (t.protocolWords family form).length = t.protocolCount := by
  unfold protocolWords protocolCount
  by_cases h : t.protocols = []
  · simp [h]
  · simp [h]

theorem length_icmpCodes {codes : List Nat} (h : t.icmpCodes family = .ok codes) :
    codes.length = t.icmpTypes.length := by
  unfold icmpCodes at h
  split at h
  · split at h
    · cases h
    · split at h
      · cases h
      · exact (mapM_eq_ok_iff.mp h).length_eq.symm
  · cases h

theorem length_icmpChoices {cs : List (Option Nat)} (h : t.icmpChoices family = .ok cs) : cs.length = t.icmpCount := by
  unfold icmpChoices at h
  unfold icmpCount
  by_cases ht : t.icmpTypes = []
  · rw [if_pos (List.isEmpty_iff.mpr ht)] at h
    cases h
    rw [if_pos ht]
    rfl
  · rw [if_neg (mt List.isEmpty_iff.mp ht), map_eq_ok_iff] at h
    obtain ⟨codes, hcodes, rfl⟩ := h
    rw [if_neg ht, List.length_map, length_icmpCodes hcodes]

/-! ## The products -/

section
variable {sources destinations : List Endpoint} {icmpTypes : List (Option Nat)}

theorem extendedRules_eq_map : t.extendedRules family form action sources destinations icmpTypes =
    (((((sources ×ˢ destinations) ×ˢ portChoices t.sourcePorts) ×ˢ portChoices t.destinationPorts) ×ˢ
      t.protocolWords family form) ×ˢ icmpTypes).map
        fun (((((source, destination), sourcePorts), destinationPorts), protocol), icmpType) =>
          { action, protocol, source, sourcePorts, destination, destinationPorts, icmpType,
            options := t.ruleOptions } := by
  simp only [extendedRules, SProd.sprod, List.product, List.flatMap_assoc, List.flatMap_map, List.map_flatMap,
    List.map_map]
  rfl

theorem length_extendedRules :
    (t.extendedRules family form action sources destinations icmpTypes).length =
      sources.length * destinations.length * (portChoices t.sourcePorts).length *
        (portChoices t.destinationPorts).length * (t.protocolWords family form).length * icmpTypes.length := by
  simp only [extendedRules_eq_map, List.length_map, List.length_product]

theorem getElem?_extendedRules_eq_some_iff {k : Nat} {r : ExtendedRule} :
    (t.extendedRules family form action sources destinations icmpTypes)[k]? = some r ↔ ∃ i j a b p c,
      k = ((((i * destinations.length + j) * (portChoices t.sourcePorts).length + a) *
        (portChoices t.destinationPorts).length + b) * (t.protocolWords family form).length + p) *
          icmpTypes.length + c ∧
      r.action = action ∧ sources[i]? = some r.source ∧ destinations[j]? = some r.destination ∧
      (portChoices t.sourcePorts)[a]? = some r.sourcePorts ∧
      (portChoices t.destinationPorts)[b]? = some r.destinationPorts ∧
      (t.protocolWords family form)[p]? = some r.protocol ∧ icmpTypes[c]? = some r.icmpType ∧
      r.options = t.ruleOptions := by
  rw [extendedRules_eq_map, List.getElem?_map, Option.map_eq_some_iff]
  constructor
  · rintro ⟨⟨⟨⟨⟨⟨source, destination⟩, sp⟩, dp⟩, protocol⟩, icmpType⟩, h, rfl⟩
    obtain ⟨_, c, rfl, h, hc⟩ := getElem?_product_eq_some_iff.mp h
    obtain ⟨_, p, rfl, h, hp⟩ := getElem?_product_eq_some_iff.mp h
    obtain ⟨_, b, rfl, h, hb⟩ := getElem?_product_eq_some_iff.mp h
    obtain ⟨_, a, rfl, h, ha⟩ := getElem?_product_eq_some_iff.mp h
    obtain ⟨i, j, rfl, hi, hj⟩ := getElem?_product_eq_some_iff.mp h
    exact ⟨i, j, a, b, p, c, rfl, rfl, hi, hj, ha, hb, hp, hc, rfl⟩
  · obtain ⟨action', protocol, source, sp, destination, dp, icmpType, options⟩ := r
    rintro ⟨i, j, a, b, p, c, rfl, rfl, hi, hj, ha, hb, hp, hc, rfl⟩
    refine ⟨(((((source, destination), sp), dp), protocol), icmpType), ?_, rfl⟩
    have hsides := getElem?_product_eq_some_iff.mpr ⟨i, j, rfl, hi, hj⟩
    have hsp := getElem?_product_eq_some_iff.mpr ⟨_, a, rfl, hsides, ha⟩
    have hdp := getElem?_product_eq_some_iff.mpr ⟨_, b, rfl, hsp, hb⟩
    have hprotocol := getElem?_product_eq_some_iff.mpr ⟨_, p, rfl, hdp, hp⟩
    exact getElem?_product_eq_some_iff.mpr ⟨_, c, rfl, hprotocol, hc⟩

end

section
variable {source destination : AddressGroup}

theorem groupRules_eq_map : t.groupRules form action source destination =
    ((portGroupChoices t.sourcePorts ×ˢ portGroupChoices t.destinationPorts) ×ˢ t.protocolWords .inet form).map
      fun ((sourcePorts, destinationPorts), protocol) =>
        { action, protocol, source := source.token, sourcePorts, destination := destination.token, destinationPorts,
          options := t.ruleOptions } := by
  simp only [groupRules, SProd.sprod, List.product, List.flatMap_assoc, List.flatMap_map, List.map_flatMap,
    List.map_map]
  rfl

theorem length_groupRules : (t.groupRules form action source destination).length =
    (portGroupChoices t.sourcePorts).length * (portGroupChoices t.destinationPorts).length *
      (t.protocolWords .inet form).length := by
  simp only [groupRules_eq_map, List.length_map, List.length_product]

theorem getElem?_groupRules_eq_some_iff {k : Nat} {r : GroupRule} :
    (t.groupRules form action source destination)[k]? = some r ↔ ∃ a b p,
      k = (a * (portGroupChoices t.destinationPorts).length + b) * (t.protocolWords .inet form).length + p ∧
      r.action = action ∧ r.source = source.token ∧ r.destination = destination.token ∧
      (portGroupChoices t.sourcePorts)[a]? = some r.sourcePorts ∧
      (portGroupChoices t.destinationPorts)[b]? = some r.destinationPorts ∧
      (t.protocolWords .inet form)[p]? = some r.protocol ∧ r.options = t.ruleOptions := by
  rw [groupRules_eq_map, List.getElem?_map, Option.map_eq_some_iff]
  constructor
  · rintro ⟨⟨⟨sp, dp⟩, protocol⟩, h, rfl⟩
    obtain ⟨_, p, rfl, h, hp⟩ := getElem?_product_eq_some_iff.mp h
    obtain ⟨a, b, rfl, ha, hb⟩ := getElem?_product_eq_some_iff.mp h
    exact ⟨a, b, p, rfl, rfl, rfl, rfl, ha, hb, hp, rfl⟩
  · obtain ⟨action', protocol, source', sp, destination', dp, options⟩ := r
    rintro ⟨a, b, p, rfl, rfl, rfl, rfl, ha, hb, hp, rfl⟩
    refine ⟨((sp, dp), protocol), ?_, rfl⟩
    have hports := getElem?_product_eq_some_iff.mpr ⟨a, b, rfl, ha, hb⟩
    exact getElem?_product_eq_some_iff.mpr ⟨_, p, rfl, hports, hp⟩

end

end Term

/-! ## Places of lines -/

structure ExtendedRule.Digits where
  source : Nat
  destination : Nat
  sourcePorts : Nat
  destinationPorts : Nat
  protocol : Nat
  icmpType : Nat

/-- The digits as one number, the source counting most and the ICMP type least. -/
def ExtendedRule.Digits.number (d : Digits) (t : Term) (family : Family) : Nat :=
  ((((d.source * t.sideCount .destination family + d.destination) * portCount t.sourcePorts + d.sourcePorts) *
    portCount t.destinationPorts + d.destinationPorts) * t.protocolCount + d.protocol) * t.icmpCount + d.icmpType

structure ExtendedRule.HasDigits (t : Term) (family : Family) (form : ProtocolForm) (d : Digits) (r : ExtendedRule) :
    Prop where
  action : t.action? = some r.action
  source : ∃ es, t.endpoints? .source family = some es ∧ es[d.source]? = some r.source
  destination : ∃ es, t.endpoints? .destination family = some es ∧ es[d.destination]? = some r.destination
  sourcePorts : (portChoices t.sourcePorts)[d.sourcePorts]? = some r.sourcePorts
  destinationPorts : (portChoices t.destinationPorts)[d.destinationPorts]? = some r.destinationPorts
  protocol : (t.protocolWords family form)[d.protocol]? = some r.protocol
  icmpType : ∃ cs, t.icmpChoices family = .ok cs ∧ cs[d.icmpType]? = some r.icmpType
  options : r.options = t.ruleOptions

structure GroupRule.Digits where
  sourcePorts : Nat
  destinationPorts : Nat
  protocol : Nat

def GroupRule.Digits.number (d : Digits) (t : Term) : Nat :=
  (d.sourcePorts * portGroupCount t.destinationPorts + d.destinationPorts) * t.protocolCount + d.protocol

structure GroupRule.HasDigits (t : Term) (form : ProtocolForm) (d : Digits) (r : GroupRule) : Prop where
  action : t.action? = some r.action
  source : ∃ g, t.addressGroup? .source = some g ∧ r.source = g.token
  destination : ∃ g, t.addressGroup? .destination = some g ∧ r.destination = g.token
  sourcePorts : (portGroupChoices t.sourcePorts)[d.sourcePorts]? = some r.sourcePorts
  destinationPorts : (portGroupChoices t.destinationPorts)[d.destinationPorts]? = some r.destinationPorts
  protocol : (t.protocolWords .inet form)[d.protocol]? = some r.protocol
  options : r.options = t.ruleOptions

def Term.extendedCount (t : Term) (family : Family) : Nat :=
  t.sideCount .source family * t.sideCount .destination family * portCount t.sourcePorts *
    portCount t.destinationPorts * t.protocolCount * t.icmpCount

def Term.groupCount (t : Term) : Nat :=
  portGroupCount t.sourcePorts * portGroupCount t.destinationPorts * t.protocolCount

/-- Where the places of rules are known, so are those of their lines behind the remarks. -/
theorem Rendering.getElem?_lines_eq_some_iff {ρ δ : Type} (write : ρ → String) (remarks : List String) {rs : List ρ}
    {k : Nat} {Places : δ → ρ → Prop} (h : ∀ r, rs[k]? = some r ↔ ∃ d, Places d r) (line : String) :
    ((block remarks (.rules rs)).lines write)[remarks.length + k]? = some line ↔
      ∃ d r, Places d r ∧ line = write r := by
  rw [lines, List.getElem?_append_right (Nat.le_add_right _ _), Nat.add_sub_cancel_left, List.getElem?_map,
    Option.map_eq_some_iff]
  simp only [h]
  constructor
  · rintro ⟨r, ⟨d, hd⟩, rfl⟩
    exact ⟨d, r, hd, rfl⟩
  · rintro ⟨d, r, hd, rfl⟩
    exact ⟨r, ⟨d, hd⟩, rfl⟩

theorem Rendering.length_lines {ρ : Type} (write : ρ → String) (remarks : List String) (rs : List ρ) :
    ((block remarks (.rules rs)).lines write).length = remarks.length + rs.length := by
  rw [lines, List.length_append, List.length_map]

namespace Scope

variable {s : Scope} {family : Family} {t : Term} {remarks : List String}

theorem length_extended {rs : List ExtendedRule} (h : s.extended family t = .ok (.block remarks (.rules rs))) :
    rs.length = t.extendedCount family := by
  cases extended_eq_iff.mp h with
  | rules _ _ _ _ hs hd hi =>
    rw [Term.length_extendedRules, Term.length_endpoints? hs, Term.length_endpoints? hd, length_portChoices,
      length_portChoices, Term.length_protocolWords, Term.length_icmpChoices hi]
    rfl

theorem getElem?_extended_eq_some_iff {rs : List ExtendedRule}
    (h : s.extended family t = .ok (.block remarks (.rules rs))) {k : Nat} {r : ExtendedRule} :
    rs[k]? = some r ↔
      ∃ d : ExtendedRule.Digits, k = d.number t family ∧ r.HasDigits t family s.config.settings.protocolForm d := by
  cases extended_eq_iff.mp h with
  | @rules action sources destinations icmpTypes _ _ _ ha hs hd hi =>
    rw [Term.getElem?_extendedRules_eq_some_iff]
    simp only [Term.length_endpoints? hd, length_portChoices, Term.length_protocolWords, Term.length_icmpChoices hi]
    constructor
    · rintro ⟨i, j, a, b, p, c, rfl, rfl, hi', hj, ha', hb, hp, hc, ho⟩
      exact ⟨⟨i, j, a, b, p, c⟩, rfl, ha, ⟨sources, hs, hi'⟩, ⟨destinations, hd, hj⟩, ha', hb, hp,
        ⟨icmpTypes, hi, hc⟩, ho⟩
    · rintro ⟨⟨i, j, a, b, p, c⟩, rfl, haction, ⟨es, hes, hi'⟩, ⟨es', hes', hj⟩, ha', hb, hp,
        ⟨cs, hcs, hc⟩, ho⟩
      cases ha.symm.trans haction
      cases hs.symm.trans hes
      cases hd.symm.trans hes'
      cases hi.symm.trans hcs
      exact ⟨i, j, a, b, p, c, rfl, rfl, hi', hj, ha', hb, hp, hc, ho⟩

theorem length_objectGroup {rs : List GroupRule} (h : s.objectGroup t = .ok (.block remarks (.rules rs))) :
    rs.length = t.groupCount := by
  cases objectGroup_eq_iff.mp h
  rw [Term.length_groupRules, length_portGroupChoices, length_portGroupChoices, Term.length_protocolWords]
  rfl

theorem getElem?_objectGroup_eq_some_iff {rs : List GroupRule}
    (h : s.objectGroup t = .ok (.block remarks (.rules rs))) {k : Nat} {r : GroupRule} :
    rs[k]? = some r ↔
      ∃ d : GroupRule.Digits, k = d.number t ∧ r.HasDigits t s.config.settings.protocolForm d := by
  cases objectGroup_eq_iff.mp h with
  | @rules action source destination _ _ hs hd ha =>
    rw [Term.getElem?_groupRules_eq_some_iff]
    simp only [length_portGroupChoices, Term.length_protocolWords]
    constructor
    · rintro ⟨a, b, p, rfl, rfl, hrs, hrd, ha', hb, hp, ho⟩
      exact ⟨⟨a, b, p⟩, rfl, ha, ⟨source, hs, hrs⟩, ⟨destination, hd, hrd⟩, ha', hb, hp, ho⟩
    · rintro ⟨⟨a, b, p⟩, rfl, haction, ⟨g, hg, hrs⟩, ⟨g', hg', hrd⟩, ha', hb, hp, ho⟩
      cases ha.symm.trans haction
      cases hs.symm.trans hg
      cases hd.symm.trans hg'
      exact ⟨a, b, p, rfl, rfl, hrs, hrd, ha', hb, hp, ho⟩

/-- The rule lines of a term are as many as there are choices for all their parts together, and the place of a line
after the remarks is the number that the places of its parts are the digits of, in an extended filter and in an
object-group one. -/
theorem lines_in_mixed_radix (s : Scope) (t : Term) :
    (∀ family remarks rs, s.extended family t = .ok (.block remarks (.rules rs)) →
      ((Rendering.block remarks (.rules rs)).lines (ExtendedRule.text family)).length =
        remarks.length + t.extendedCount family ∧
      ∀ k line, ((Rendering.block remarks (.rules rs)).lines (ExtendedRule.text family))[remarks.length + k]? =
          some line ↔
        ∃ (d : ExtendedRule.Digits) (r : ExtendedRule), k = d.number t family ∧
          r.HasDigits t family s.config.settings.protocolForm d ∧ line = r.text family) ∧
    ∀ remarks rs, s.objectGroup t = .ok (.block remarks (.rules rs)) →
      ((Rendering.block remarks (.rules rs)).lines GroupRule.text).length = remarks.length + t.groupCount ∧
      ∀ k line, ((Rendering.block remarks (.rules rs)).lines GroupRule.text)[remarks.length + k]? = some line ↔
        ∃ (d : GroupRule.Digits) (r : GroupRule), k = d.number t ∧
          r.HasDigits t s.config.settings.protocolForm d ∧ line = r.text := by
  constructor
  · intro family remarks rs h
    rw [Rendering.length_lines, length_extended h]
    refine ⟨rfl, fun k line => ?_⟩
    rw [Rendering.getElem?_lines_eq_some_iff _ remarks (fun _ => getElem?_extended_eq_some_iff h)]
    simp only [and_assoc]
  · intro remarks rs h
    rw [Rendering.length_lines, length_objectGroup h]
    refine ⟨rfl, fun k line => ?_⟩
    rw [Rendering.getElem?_lines_eq_some_iff _ remarks (fun _ => getElem?_objectGroup_eq_some_iff h)]
    simp only [and_assoc]

/-- TCP and UDP to ports 5060 and 5061 from 198.51.100.0/24 without its second quarter. -/
def gridTerm : Term where
  name := "grid"
  actions := [.accept]
  protocols := ["tcp", "udp"]
  sources := [{ block := ⟨⟨.inet, 0xC6336400, by decide⟩, 24, by decide⟩ }]
  sourceExcludes := [{ block := ⟨⟨.inet, 0xC6336440, by decide⟩, 26, by decide⟩ }]
  destinationPorts := [⟨⟨5060, by decide⟩, ⟨5061, by decide⟩⟩]

/-- The rule from the second of the two pieces to the first port by the second protocol, and the rule for the groups by
the second protocol. -/
theorem gridTerm_lines :
    (∃ remarks rs, plain.extended .inet gridTerm = .ok (.block remarks (.rules rs)) ∧
      ((Rendering.block remarks (.rules rs)).lines (ExtendedRule.text .inet)).length = remarks.length + 8 ∧
      ((Rendering.block remarks (.rules rs)).lines (ExtendedRule.text .inet))[remarks.length + 5]? =
        some " permit udp 198.51.100.128 0.0.0.127 any eq 5060") ∧
    ∃ remarks rs, plain.objectGroup gridTerm = .ok (.block remarks (.rules rs)) ∧
      ((Rendering.block remarks (.rules rs)).lines GroupRule.text).length = remarks.length + 2 ∧
      ((Rendering.block remarks (.rules rs)).lines GroupRule.text)[remarks.length + 1]? =
        some " permit udp addrgroup grid-src addrgroup ANY portgroup 5060-5061" := by
  obtain ⟨hextended, hgroup⟩ := lines_in_mixed_radix plain gridTerm
  constructor
  · let half : Endpoint := .block ⟨⟨.inet, 0xC6336480, by decide⟩, 25, by decide⟩
    have hs : gridTerm.endpoints? .source .inet =
        some [.block ⟨⟨.inet, 0xC6336400, by decide⟩, 26, by decide⟩, half] := by decide +kernel
    have h := (@extended_eq_iff plain _ _ _).mpr (.rules (by decide) (by decide) rfl rfl hs rfl rfl)
    have hcount : gridTerm.extendedCount .inet = 8 := by decide +kernel
    obtain ⟨hlength, hplaces⟩ := hextended .inet _ _ h
    refine ⟨_, _, h, hcount ▸ hlength, (hplaces 5 _).mpr ⟨⟨1, 0, 0, 0, 1, 0⟩,
      ⟨.accept, "udp", half, none, .any, some (.single ⟨5060, by decide⟩), none, []⟩, ?_, ?_, ?_⟩⟩
    · decide +kernel
    · exact ⟨rfl, ⟨_, hs, rfl⟩, ⟨_, rfl, rfl⟩, rfl, by decide, by decide, ⟨_, rfl, rfl⟩, rfl⟩
    · decide +kernel
  · have hs : gridTerm.addressGroup? .source = some ⟨"grid-src",
        [⟨⟨.inet, 0xC6336400, by decide⟩, 26, by decide⟩, ⟨⟨.inet, 0xC6336480, by decide⟩, 25, by decide⟩]⟩ := by
      decide +kernel
    have hd : gridTerm.addressGroup? .destination = some .any := rfl
    have h := (@objectGroup_eq_iff plain _ _).mpr (.rules (by decide) rfl hs hd rfl)
    obtain ⟨hlength, hplaces⟩ := hgroup _ _ h
    refine ⟨_, _, h, hlength, (hplaces 1 _).mpr ⟨⟨0, 0, 1⟩,
      ⟨.accept, "udp", "grid-src", none, "ANY", some ⟨⟨5060, by decide⟩, ⟨5061, by decide⟩⟩, []⟩, rfl, ?_, ?_⟩⟩
    · exact ⟨rfl, ⟨_, hs, rfl⟩, ⟨_, rfl, rfl⟩, rfl, rfl, by decide, rfl⟩
    · decide +kernel

end Scope

end AccessList
