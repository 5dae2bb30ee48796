import AccessList.Proofs.Rule.ExtendedMeaning
import AccessList.Proofs.Rule.GroupCollection

/-!
# Group rules and extended rules of one term

An object-group filter writes a term with names for its addresses and ports, an extended filter writes them out. With
the names read as the groups of the term, both match the packets that the term declares. They part over ICMPv6 only:
an extended filter leaves out a term with that protocol, an object-group filter does not.
-/

namespace AccessList

namespace Packet

def address (k : Packet) : Side → Address
  | .source => k.source
  | .destination => k.destination

def port (k : Packet) : Side → Port
  | .source => k.sourcePort
  | .destination => k.destinationPort

end Packet

/-- What a rule matches when its names stand for the address groups of its term and for the ports in them. -/
structure GroupRule.Matches (t : Term) (r : GroupRule) (k : Packet) : Prop where
  protocol : r.protocol = k.protocol
  address : ∀ side, ∃ g, t.addressGroup? side = some g ∧ r.token side = g.token ∧ ∃ p ∈ g.members, k.address side ∈ p
  port : ∀ side, ∀ ports ∈ r.ports side, k.port side ∈ ports

structure RulesAgree (t : Term) (gs : List GroupRule) (es : List ExtendedRule) : Prop where
  emitted : gs ≠ [] ↔ es ≠ []
  matched : ∀ k : Packet, (∀ side, (k.address side).family = .inet) →
    ((∃ r ∈ gs, r.Matches t k) ↔ ∃ r ∈ es, r.Matches k)
  keyword : ∀ r ∈ gs, ∀ e ∈ es, r.action.keyword = e.action.keyword
  options : ∀ r ∈ gs, ∀ e ∈ es, r.protocol = e.protocol →
    RuleOption.words r.options r.protocol = RuleOption.words e.options e.protocol

theorem RulesAgree.nil (t : Term) : RulesAgree t [] [] := by
  constructor
  · simp
  · intro k _
    simp
  · intro r hr
    cases hr
  · intro r hr
    cases hr

namespace Term

variable {t : Term} {side : Side}

/-! ## Address groups -/

theorem addressGroup?_eq_none_iff :
    t.addressGroup? side = none ↔ t.declared side ≠ [] ∧ t.remaining side .inet = [] := by
  unfold addressGroup?
  by_cases hd : t.declared side = []
  · simp [hd]
  · rw [if_neg (mt List.isEmpty_iff.mp hd)]
    cases t.remaining side .inet with
    | nil => simp [hd]
    | cons a as => simp

/-- The members of a group take what the side takes. -/
theorem members_match_iff {g : AddressGroup} (h : t.addressGroup? side = some g) {x : Address}
    (hx : x.family = .inet) : (∃ p ∈ g.members, x ∈ p) ↔ t.Takes side .inet x := by
  unfold addressGroup? at h
  unfold Takes
  by_cases hd : t.declared side = []
  · rw [if_pos (List.isEmpty_iff.mpr hd)] at h
    cases h
    have hall : x ∈ Cidr.all .inet := hx ▸ Cidr.mem_all x
    simp [hd, AddressGroup.any, hall]
  · rw [if_neg (mt List.isEmpty_iff.mp hd)] at h
    rw [← remaining_covered]
    cases hr : t.remaining side .inet with
    | nil => rw [hr] at h; cases h
    | cons a as =>
      rw [hr] at h
      cases h
      simp [hd]

/-! ## The product -/

theorem portGroupChoices_match_iff (ports : List PortRange) (p : Port) :
    (∃ c ∈ portGroupChoices ports, ∀ r ∈ c, p ∈ r) ↔ ports = [] ∨ ∃ r ∈ ports, p ∈ r := by
  unfold portGroupChoices
  by_cases h : ports = []
  · simp [h]
  · rw [if_neg (mt List.isEmpty_iff.mp h), exists_some_iff]
    simp [h]

theorem portChoices_ne_nil (ports : List PortRange) : portChoices ports ≠ [] := by
  unfold portChoices PortRange.splitPairs
  cases ports with
  | nil => simp
  | cons r rs =>
    by_cases h : r.low.val + 1 = r.high.val
    · simp [h]
    · simp [h]

theorem extendedRules_ne_nil {family : Family} {sources destinations : List Endpoint}
    {icmpTypes : List (Option Nat)} (form : ProtocolForm) (action : Action) (hs : sources ≠ [])
    (hd : destinations ≠ []) (hi : icmpTypes ≠ []) :
    t.extendedRules family form action sources destinations icmpTypes ≠ [] := by
  obtain ⟨source, hsource⟩ := List.exists_mem_of_ne_nil _ hs
  obtain ⟨destination, hdestination⟩ := List.exists_mem_of_ne_nil _ hd
  obtain ⟨icmpType, hicmpType⟩ := List.exists_mem_of_ne_nil _ hi
  obtain ⟨sp, hsp⟩ := List.exists_mem_of_ne_nil _ (portChoices_ne_nil t.sourcePorts)
  obtain ⟨dp, hdp⟩ := List.exists_mem_of_ne_nil _ (portChoices_ne_nil t.destinationPorts)
  obtain ⟨p, hp⟩ := List.exists_mem_of_ne_nil _ (t.protocolWords_ne_nil family form)
  have hmem : (⟨action, p, source, sp, destination, dp, icmpType, t.ruleOptions⟩ : ExtendedRule) ∈
      t.extendedRules family form action sources destinations icmpTypes :=
    mem_extendedRules_iff.mpr ⟨rfl, hp, hsource, hsp, hdestination, hdp, hicmpType, rfl⟩
  exact List.ne_nil_of_mem hmem

/-- The group rules of a term match the packets that it declares. -/
theorem groupRules_match_iff {form : ProtocolForm} {action : Action} {source destination : AddressGroup}
    (hs : t.addressGroup? .source = some source) (hd : t.addressGroup? .destination = some destination)
    (hi : t.icmpTypes = []) {k : Packet} (hk : ∀ side, (k.address side).family = .inet) :
    (∃ r ∈ t.groupRules form action source destination, r.Matches t k) ↔
      k.protocol ∈ t.protocolWords .inet form ∧ t.Declares .inet k := by
  have msource := members_match_iff hs (hk .source)
  have mdestination := members_match_iff hd (hk .destination)
  have msp := portGroupChoices_match_iff t.sourcePorts k.sourcePort
  have mdp := portGroupChoices_match_iff t.destinationPorts k.destinationPort
  constructor
  · rintro ⟨r, hr, hm⟩
    obtain ⟨-, hp, -, hsp, -, hdp, -⟩ := mem_groupRules_iff.mp hr
    obtain ⟨g, hg, -, hgs⟩ := hm.address .source
    obtain ⟨g', hg', -, hgd⟩ := hm.address .destination
    rw [hs] at hg; cases hg
    rw [hd] at hg'; cases hg'
    refine ⟨hm.protocol ▸ hp, msource.mp hgs, mdestination.mp hgd, ?_, ?_, .inl hi⟩
    · exact msp.mp ⟨_, hsp, hm.port .source⟩
    · exact mdp.mp ⟨_, hdp, hm.port .destination⟩
  · rintro ⟨hp, h⟩
    obtain ⟨sp, hsp, hmsp⟩ := msp.mpr h.sourcePort
    obtain ⟨dp, hdp, hmdp⟩ := mdp.mpr h.destinationPort
    refine ⟨⟨action, k.protocol, source.token, sp, destination.token, dp, t.ruleOptions⟩,
      mem_groupRules_iff.mpr ⟨rfl, hp, rfl, hsp, rfl, hdp, rfl⟩, rfl, ?_, ?_⟩
    · intro side
      cases side with
      | source => exact ⟨source, hs, rfl, msource.mpr h.source⟩
      | destination => exact ⟨destination, hd, rfl, mdestination.mpr h.destination⟩
    · intro side
      cases side with
      | source => exact hmsp
      | destination => exact hmdp

/-- So do its extended rules. -/
theorem extendedRules_declared_iff {family : Family} {form : ProtocolForm} {action : Action}
    {sources destinations : List Endpoint} {icmpTypes : List (Option Nat)}
    (hs : t.endpoints? .source family = some sources) (hd : t.endpoints? .destination family = some destinations)
    (hi : t.icmpChoices family = .ok icmpTypes) (k : Packet) :
    (∃ r ∈ t.extendedRules family form action sources destinations icmpTypes, r.Matches k) ↔
      k.protocol ∈ t.protocolWords family form ∧ t.Declares family k := by
  by_cases hp : k.protocol ∈ t.protocolWords family form
  · rw [extendedRules_match_iff hp, endpoints_match_iff hs, endpoints_match_iff hd, portChoices_match_iff,
      portChoices_match_iff, icmpChoices_match_iff hi]
    constructor
    · intro hm
      obtain ⟨ms, md, msp, mdp, mi⟩ := hm
      exact ⟨hp, ms, md, msp, mdp, mi⟩
    · intro h
      obtain ⟨-, h⟩ := h
      exact ⟨h.source, h.destination, h.sourcePort, h.destinationPort, h.icmpType⟩
  · constructor
    · intro h
      obtain ⟨r, hr, hm⟩ := h
      obtain ⟨-, hrp, -⟩ := mem_extendedRules_iff.mp hr
      exact absurd (hm.protocol ▸ hrp) hp
    · intro h
      exact absurd h.1 hp

theorem rulesAgree {form : ProtocolForm} {action : Action} {source destination : AddressGroup}
    {sources destinations : List Endpoint} (hs : t.addressGroup? .source = some source)
    (hd : t.addressGroup? .destination = some destination) (hes : t.endpoints? .source .inet = some sources)
    (hed : t.endpoints? .destination .inet = some destinations) (hi : t.icmpTypes = []) :
    RulesAgree t (t.groupRules form action source destination)
      (t.extendedRules .inet form action sources destinations [none]) := by
  have hicmp : t.icmpChoices .inet = .ok [none] := by simp [icmpChoices, hi]
  have hsources : sources ≠ [] := by
    rcases endpoints?_eq_some_iff.mp hes with ⟨-, rfl⟩ | ⟨-, hne, rfl⟩
    · simp
    · simpa using hne
  have hdestinations : destinations ≠ [] := by
    rcases endpoints?_eq_some_iff.mp hed with ⟨-, rfl⟩ | ⟨-, hne, rfl⟩
    · simp
    · simpa using hne
  constructor
  · have hes := @extendedRules_ne_nil t .inet _ _ [none] form action hsources hdestinations (by simp)
    simp [groupRules_ne_nil, hes]
  · intro k hk
    rw [groupRules_match_iff hs hd hi hk, extendedRules_declared_iff hes hed hicmp]
  · intro r hr e he
    obtain ⟨hra, -⟩ := mem_groupRules_iff.mp hr
    obtain ⟨hea, -⟩ := mem_extendedRules_iff.mp he
    rw [hra, hea]
  · intro r hr e he hp
    obtain ⟨-, -, -, -, -, -, hro⟩ := mem_groupRules_iff.mp hr
    obtain ⟨-, -, -, -, -, -, -, heo⟩ := mem_extendedRules_iff.mp he
    rw [hro, heo, hp]

end Term

/-! ## When a term comes to rules -/

/-- A term is suppressed that is for other platforms, or that has no IPv4 address left of a side. -/
def Term.Suppressed (t : Term) (platform : String) : Prop :=
  t.excludes platform = true ∨ ∃ side, t.addressGroup? side = none

theorem Term.endpoints?_inet_eq_none_iff {t : Term} {side : Side} :
    t.endpoints? side .inet = none ↔ t.addressGroup? side = none :=
  endpoints?_eq_none_iff.trans addressGroup?_eq_none_iff.symm

namespace Scope

variable {s : Scope} {t : Term} {action : Action}

theorem not_suppressed {source destination : AddressGroup} (hx : t.excludes s.platform = false)
    (hs : t.addressGroup? .source = some source) (hd : t.addressGroup? .destination = some destination) :
    ¬t.Suppressed s.platform := by
  rintro (h | ⟨side, h⟩)
  · rw [hx] at h; cases h
  · cases side with
    | source => rw [hs] at h; cases h
    | destination => rw [hd] at h; cases h

/-- What a term comes to in an object-group filter. -/
theorem objectGroup_rules (hv : t.verbatims = []) (ha : t.action? = some action) {g : Rendering GroupRule}
    (hg : s.objectGroup t = .ok g) :
    t.Suppressed s.platform ∧ g.rules = [] ∨
      ¬t.Suppressed s.platform ∧ ∃ source destination, t.addressGroup? .source = some source ∧
        t.addressGroup? .destination = some destination ∧
        g.rules = t.groupRules s.config.settings.protocolForm action source destination := by
  cases objectGroup_eq_iff.mp hg with
  | otherPlatform hx => exact .inl ⟨.inl hx, rfl⟩
  | verbatim _ hverbatim => exact absurd hv hverbatim
  | noGroup _ _ hside => exact .inl ⟨.inr ⟨_, hside⟩, rfl⟩
  | rules hx _ hs hd hfirst =>
    rw [ha] at hfirst
    cases hfirst
    exact .inr ⟨not_suppressed hx hs hd, _, _, hs, hd, rfl⟩

/-- What a term without ICMP types comes to in an extended filter. -/
theorem extended_rules (hv : t.verbatims = []) (hi : t.icmpTypes = []) (ha : t.action? = some action) :
    ∃ e, s.extended .inet t = .ok e ∧
      ((t.Suppressed s.platform ∨ "icmpv6" ∈ t.protocols) ∧ e.rules = [] ∨
        ¬t.Suppressed s.platform ∧ "icmpv6" ∉ t.protocols ∧ ∃ sources destinations,
          t.endpoints? .source .inet = some sources ∧ t.endpoints? .destination .inet = some destinations ∧
          e.rules = t.extendedRules .inet s.config.settings.protocolForm action sources destinations [none]) := by
  have hicmp : t.icmpChoices .inet = .ok [none] := by simp [Term.icmpChoices, hi]
  generalize houtcome : s.extended .inet t = outcome
  cases extended_eq_iff.mp houtcome with
  | otherPlatform hx => exact ⟨_, rfl, .inl ⟨.inl (.inl hx), rfl⟩⟩
  | icmp6 _ h6 => exact ⟨_, rfl, .inl ⟨.inr h6.2, rfl⟩⟩
  | verbatim _ _ hverbatim => exact absurd hv hverbatim
  | noAction _ _ _ hnone => rw [ha] at hnone; cases hnone
  | noSources _ _ _ _ hs => exact ⟨_, rfl, .inl ⟨.inl (.inr ⟨.source, Term.endpoints?_inet_eq_none_iff.mp hs⟩), rfl⟩⟩
  | noDestinations _ _ _ _ _ hd =>
    exact ⟨_, rfl, .inl ⟨.inl (.inr ⟨.destination, Term.endpoints?_inet_eq_none_iff.mp hd⟩), rfl⟩⟩
  | badTypes _ _ _ _ _ _ herror => rw [hicmp] at herror; cases herror
  | rules hx h6 _ hfirst hs hd hchoices =>
    rw [ha] at hfirst
    cases hfirst
    rw [hicmp] at hchoices
    cases hchoices
    have hgroups : ∀ side, t.endpoints? side .inet ≠ none → ∃ g, t.addressGroup? side = some g := fun side hside =>
      Option.ne_none_iff_exists'.mp (mt Term.endpoints?_inet_eq_none_iff.mpr hside)
    obtain ⟨source, hsource⟩ := hgroups .source (by simp [hs])
    obtain ⟨destination, hdestination⟩ := hgroups .destination (by simp [hd])
    exact ⟨_, rfl, .inr ⟨not_suppressed hx hsource hdestination, fun h => h6 ⟨rfl, h⟩, _, _, hs, hd, rfl⟩⟩

/-- The two renderings of a term agree, unless it has the protocol ICMPv6 and comes to group rules. -/
theorem renderings_agree_iff (s : Scope) (ha : t.actions ≠ []) (hv : t.verbatims = []) (hi : t.icmpTypes = []) :
    ∃ g e, s.objectGroup t = .ok g ∧ s.extended .inet t = .ok e ∧
      (RulesAgree t g.rules e.rules ↔ t.Suppressed s.platform ∨ "icmpv6" ∉ t.protocols) := by
  have haction : t.action? = some (t.actions.head ha) := List.head?_eq_some_head _
  obtain ⟨g, hg⟩ := s.objectGroup_of_actions ha
  obtain ⟨e, he, hextended⟩ := s.extended_rules hv hi haction
  refine ⟨g, e, hg, he, ?_⟩
  rcases objectGroup_rules hv haction hg with ⟨hsup, hgs⟩ | ⟨hsup, source, destination, hs, hd, hgs⟩
  · have hes : e.rules = [] := by
      rcases hextended with ⟨-, hes⟩ | ⟨hnot, -⟩
      · exact hes
      · exact absurd hsup hnot
    rw [hgs, hes]
    exact ⟨fun _ => .inl hsup, fun _ => .nil t⟩
  · rcases hextended with ⟨hwhy, hes⟩ | ⟨-, h6, sources, destinations, hes, hed, hrules⟩
    · -- Only ICMPv6 is left to keep the extended rules away.
      have h6 : "icmpv6" ∈ t.protocols := hwhy.resolve_left hsup
      rw [hgs, hes]
      constructor
      · intro hagree
        exact absurd rfl (hagree.emitted.mp Term.groupRules_ne_nil)
      · intro h
        exact absurd h6 (h.resolve_left hsup)
    · rw [hgs, hrules]
      exact ⟨fun _ => .inr h6, fun _ => Term.rulesAgree hs hd hes hed hi⟩

def loginTerm : Term :=
  { halfTerm with
    name := "login"
    protocols := ["tcp"]
    destinationPorts := [⟨⟨22, by decide⟩, ⟨23, by decide⟩⟩]
    logging := true }

def icmp6Term : Term where
  name := "icmp6"
  actions := [.accept]
  protocols := ["icmpv6"]

def plain : Scope := ⟨"edge", ⟨{}, .greatest⟩, .plain⟩

theorem loginTerm_renderings_agree :
    loginTerm.actions ≠ [] ∧ loginTerm.verbatims = [] ∧ loginTerm.icmpTypes = [] ∧
      (plain.objectGroup loginTerm).map (·.lines GroupRule.text) =
        .ok ["", " remark login", " permit tcp addrgroup CORP addrgroup ANY portgroup 22-23 log"] ∧
      (plain.extended .inet loginTerm).map (·.lines (ExtendedRule.text .inet)) =
        .ok ["", " remark login", " permit tcp 10.0.0.0 0.127.255.255 any eq 22 log",
          " permit tcp 10.0.0.0 0.127.255.255 any eq telnet log"] ∧
      ∃ g e, plain.objectGroup loginTerm = .ok g ∧ plain.extended .inet loginTerm = .ok e ∧
        RulesAgree loginTerm g.rules e.rules := by
  have ha : loginTerm.actions ≠ [] := by decide
  obtain ⟨g, e, hg, he, hiff⟩ := plain.renderings_agree_iff ha rfl rfl
  refine ⟨ha, rfl, rfl, ?_, ?_, g, e, hg, he, hiff.mpr (.inr (by decide))⟩
  all_goals decide +kernel

/-- An object-group filter permits ICMPv6, an extended one of the same family leaves it out. -/
theorem icmp6Term_renderings_differ :
    icmp6Term.actions ≠ [] ∧ icmp6Term.verbatims = [] ∧ icmp6Term.icmpTypes = [] ∧
      ∃ g e, plain.objectGroup icmp6Term = .ok g ∧ plain.extended .inet icmp6Term = .ok e ∧
        g.lines GroupRule.text = ["", " remark icmp6", " permit icmpv6 addrgroup ANY addrgroup ANY"] ∧
        e.lines (ExtendedRule.text .inet) = [] ∧ ¬RulesAgree icmp6Term g.rules e.rules := by
  have hany : ∀ side, icmp6Term.addressGroup? side = some .any := by
    intro side
    cases side <;> rfl
  have hrules : plain.objectGroup icmp6Term =
      .ok (.block ["", " remark icmp6"] (.rules [⟨.accept, "icmpv6", "ANY", none, "ANY", none, []⟩])) :=
    objectGroup_eq_iff.mpr (.rules (by decide) rfl (hany .source) (hany .destination) rfl)
  refine ⟨by decide, rfl, rfl, _, .suppressed .icmp6, hrules, rfl, by decide +kernel, rfl, ?_⟩
  intro hagree
  exact absurd rfl (hagree.emitted.mp (List.cons_ne_nil _ _))

end Scope

end AccessList
