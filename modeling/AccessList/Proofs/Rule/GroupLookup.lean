import AccessList.Proofs.Compile.Run
import AccessList.Proofs.Rule.GroupBlock
import AccessList.Proofs.Rule.LineParts
import AccessList.Proofs.Rule.Matching
import AccessList.Proofs.Rule.Outcome

/-!
# What the names of groups resolve to

The groups of a filter are collected by name, and of all groups of one name the first stays. A port group is what its
name says. Undeclared sides share the group of all addresses, and sides of one token share what the first of them
takes; the blocks of any other side have a group of their own.
-/

namespace AccessList

/-! ## The groups of a pass -/

namespace Scope

variable {s : Scope}

theorem foldl_collect (ts : List Term) (gs : ObjectGroups) :
    ts.foldl (s.collect .objectGroup) gs = (ts.flatMap (·.groups s.platform)).foldl ObjectGroups.define gs := by
  rw [List.foldl_flatMap]
  rfl

theorem lookup_collect (ts : List Term) (name : GroupName) :
    (ts.foldl (s.collect .objectGroup) { filter := s.filter }).lookup name =
      ((ts.flatMap (·.groups s.platform)).find? (·.name = name)).toList := by
  rw [foldl_collect, ObjectGroups.lookup_foldl_define]
  rfl

theorem find?_addresses (ds : List GroupDefinition) (token : String) :
    ds.find? (·.name = .addresses token) =
      ((ds.filterMap (·.addressGroup?)).find? (·.token = token)).map .addresses := by
  induction ds with
  | nil => rfl
  | cons d ds ih =>
    rw [List.find?_cons, ih]
    cases d with
    | ports r => simp [GroupDefinition.name, GroupDefinition.addressGroup?]
    | addresses g =>
      by_cases hg : g.token = token <;> simp [GroupDefinition.name, GroupDefinition.addressGroup?, hg]

theorem lookup_addresses (ts : List Term) (token : String) :
    (ts.foldl (s.collect .objectGroup) { filter := s.filter }).lookup (.addresses token) =
      (((ts.flatMap fun t => (t.groups s.platform).filterMap (·.addressGroup?)).find? (·.token = token)).map
        .addresses).toList := by
  rw [lookup_collect, find?_addresses, List.filterMap_flatMap]

end Scope

/-! ## The rules of a term -/

namespace GroupRule

def token (r : GroupRule) : Side → String
  | .source => r.source
  | .destination => r.destination

def ports (r : GroupRule) : Side → Option PortRange
  | .source => r.sourcePorts
  | .destination => r.destinationPorts

end GroupRule

theorem portGroupChoices_ne_nil (ports : List PortRange) : portGroupChoices ports ≠ [] := by
  unfold portGroupChoices
  by_cases h : ports = []
  · simp [h]
  · simp [h]

namespace Term

variable {t : Term} {form : ProtocolForm} {action : Action} {source destination : AddressGroup}

theorem mem_groupRules_iff {r : GroupRule} :
    r ∈ t.groupRules form action source destination ↔
      r.action = action ∧ r.protocol ∈ t.protocolWords .inet form ∧ r.source = source.token ∧
        r.sourcePorts ∈ portGroupChoices t.sourcePorts ∧ r.destination = destination.token ∧
        r.destinationPorts ∈ portGroupChoices t.destinationPorts ∧ r.options = t.ruleOptions := by
  simp only [groupRules, List.mem_flatMap, List.mem_map]
  constructor
  · rintro ⟨sp, hsp, dp, hdp, protocol, hp, rfl⟩
    exact ⟨rfl, hp, rfl, hsp, rfl, hdp, rfl⟩
  · obtain ⟨a, protocol, source', sp, destination', dp, options⟩ := r
    rintro ⟨rfl, hp, rfl, hsp, rfl, hdp, rfl⟩
    exact ⟨sp, hsp, dp, hdp, protocol, hp, rfl⟩

theorem mem_of_some_mem_portGroupChoices {ports : List PortRange} {r : PortRange}
    (h : some r ∈ portGroupChoices ports) : r ∈ ports := by
  unfold portGroupChoices at h
  split at h
  · simp at h
  · simpa using h

theorem protocolWords_ne_nil (t : Term) (family : Family) (form : ProtocolForm) :
    t.protocolWords family form ≠ [] := by
  unfold protocolWords
  by_cases h : t.protocols = []
  · simp [h]
  · simp [h]

theorem exists_mem_groupRules {sp dp : Option PortRange} (hsp : sp ∈ portGroupChoices t.sourcePorts)
    (hdp : dp ∈ portGroupChoices t.destinationPorts) :
    ∃ r ∈ t.groupRules form action source destination, r.sourcePorts = sp ∧ r.destinationPorts = dp := by
  obtain ⟨p, hp⟩ := List.exists_mem_of_ne_nil _ (t.protocolWords_ne_nil .inet form)
  exact ⟨⟨action, p, source.token, sp, destination.token, dp, t.ruleOptions⟩,
    mem_groupRules_iff.mpr ⟨rfl, hp, rfl, hsp, rfl, hdp, rfl⟩, rfl, rfl⟩

theorem groupRules_ne_nil : t.groupRules form action source destination ≠ [] := by
  obtain ⟨sp, hsp⟩ := List.exists_mem_of_ne_nil _ (portGroupChoices_ne_nil t.sourcePorts)
  obtain ⟨dp, hdp⟩ := List.exists_mem_of_ne_nil _ (portGroupChoices_ne_nil t.destinationPorts)
  obtain ⟨r, hr, -⟩ := exists_mem_groupRules hsp hdp
  exact List.ne_nil_of_mem hr

/-- A term refers to groups just when it comes to rules. -/
theorem groups_eq {platform : String} (hx : t.excludes platform = false) (hv : t.verbatims = [])
    (hs : t.addressGroup? .source = some source) (hd : t.addressGroup? .destination = some destination) :
    t.groups platform =
      .addresses source :: .addresses destination :: (t.sourcePorts ++ t.destinationPorts).map .ports := by
  unfold groups
  rw [if_neg (by simp [hx, hv]), hs, hd]

end Term

namespace Scope

variable {s : Scope} {t : Term}

/-- A term that renders refers to groups just when it comes to rules. -/
theorem objectGroup_eq_ok {rendering : Rendering GroupRule} (h : s.objectGroup t = .ok rendering) :
    rendering.rules = [] ∧ t.groups s.platform = [] ∧
        (t.excludes s.platform = true ∨ t.verbatims ≠ [] ∨ ∃ side, t.addressGroup? side = none) ∨
      ∃ action source destination, t.action? = some action ∧ t.excludes s.platform = false ∧ t.verbatims = [] ∧
        t.addressGroup? .source = some source ∧ t.addressGroup? .destination = some destination ∧
        rendering.rules = t.groupRules s.config.settings.protocolForm action source destination ∧
        t.groups s.platform =
          .addresses source :: .addresses destination :: (t.sourcePorts ++ t.destinationPorts).map .ports := by
  cases objectGroup_eq_iff.mp h with
  | otherPlatform hx => exact .inl ⟨rfl, by rw [Term.groups, if_pos (by simp [hx])], .inl hx⟩
  | verbatim hx hv => exact .inl ⟨rfl, by rw [Term.groups, if_pos (by simp [hv])], .inr (.inl hv)⟩
  | @noGroup side hx hv hside =>
    refine .inl ⟨rfl, ?_, .inr (.inr ⟨side, hside⟩)⟩
    cases side with
    | source => simp [Term.groups, hside]
    | destination => simp [Term.groups, hside]
  | rules hx hv hs hd ha => exact .inr ⟨_, _, _, ha, hx, hv, hs, hd, rfl, Term.groups_eq hx hv hs hd⟩

theorem objectGroup_of_actions (s : Scope) (ha : t.actions ≠ []) : ∃ rendering, s.objectGroup t = .ok rendering := by
  have haction : t.action? = some (t.actions.head ha) := List.head?_eq_some_head _
  generalize hx : s.objectGroup t = x
  cases objectGroup_eq_iff.mp hx with
  | otherPlatform | verbatim | noGroup | rules => exact ⟨_, rfl⟩
  | noAction _ _ _ _ hnone =>
    rw [haction] at hnone
    cases hnone

end Scope

/-! ## Where a name comes from -/

namespace Scope

variable {s : Scope} {t : Term} {ts : List Term}

theorem rendered_objectGroup_eq_ok_iff {why : Option Suppression} {lines : List String} :
    s.rendered .objectGroup t = .ok (why, lines) ↔
      ∃ rendering, s.objectGroup t = .ok rendering ∧ why = rendering.suppression? ∧
        lines = rendering.lines GroupRule.text := by
  unfold rendered
  cases s.objectGroup t with
  | error e => simp [Except.map]
  | ok rendering => simp [Except.map, eq_comm]

def corp : Tagged where
  block := ⟨⟨.inet, 0x0A000000, by decide⟩, 8, by decide⟩
  token := some "CORP"

def wholeTerm : Term where
  name := "whole"
  actions := [.deny]
  sources := [corp]

def halfTerm : Term where
  name := "half"
  actions := [.accept]
  sources := [corp]
  sourceExcludes := [{ block := ⟨⟨.inet, 0x0A800000, by decide⟩, 9, by decide⟩ }]

def corpFilter : RenderedFilter where
  header := { targets := [{ platform := "cisco", options := ["og", "object-group"] }] }
  name := "og"
  type := .objectGroup
  terms := [
    ⟨"whole", ["", " remark whole", " deny ip addrgroup CORP addrgroup ANY"]⟩,
    ⟨"half", ["", " remark half", " permit ip addrgroup CORP addrgroup ANY"]⟩]
  groups := { filter := "og", definitions := [.addresses ⟨"CORP", [corp.block]⟩, .addresses .any] }

end Scope

end AccessList
