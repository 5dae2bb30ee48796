import AccessList.Proofs.Compile.Preparation
import AccessList.Proofs.Rule.ExtendedMeaning
import AccessList.Proofs.Rule.GroupLookup

/-!
# Printed port ranges have their ends in order

No range of a loaded term ends before it starts. Opening ports, splitting pairs and collecting groups keep it so, and
what is printed comes from there.
-/

namespace AccessList

namespace Term

variable {t t' : Term} {family : Family}

def PortsOrdered (t : Term) : Prop := ∀ r ∈ t.sourcePorts ++ t.destinationPorts, r.low ≤ r.high

theorem portsOrdered_of_check (h : t.check = .ok ()) : t.PortsOrdered := (check_eq_ok_iff.mp h).2.2

theorem portsOrdered_of_openHighPorts (h : t.openHighPorts family = .ok t') (hports : t.PortsOrdered) :
    t'.PortsOrdered := by
  obtain ⟨-, rfl⟩ := openHighPorts_eq_ok_iff.mp h
  split
  · obtain ⟨hsource, hdestination⟩ := List.forall_mem_append.mp hports
    exact List.forall_mem_append.mpr
      ⟨hsource, PortRange.collapse_ordered (PortRange.ordered_append_ephemeral hdestination)⟩
  · exact hports

end Term

/-! ## Rules -/

def ExtendedRule.ranges (r : ExtendedRule) : List PortRange := r.sourcePorts.toList ++ r.destinationPorts.toList

def GroupRule.ranges (r : GroupRule) : List PortRange := r.sourcePorts.toList ++ r.destinationPorts.toList

theorem portChoices_ordered {ports : List PortRange} (h : ∀ r ∈ ports, r.low ≤ r.high) {c : Option PortRange}
    (hc : c ∈ portChoices ports) : ∀ r ∈ c.toList, r.low ≤ r.high := by
  unfold portChoices at hc
  by_cases hempty : ports.isEmpty = true
  · rw [if_pos hempty, List.mem_singleton] at hc
    simp [hc]
  · rw [if_neg hempty] at hc
    obtain ⟨r, hr, rfl⟩ := List.mem_map.mp hc
    simpa using PortRange.splitPairs_ordered h r hr

theorem portGroupChoices_ordered {ports : List PortRange} (h : ∀ r ∈ ports, r.low ≤ r.high) {c : Option PortRange}
    (hc : c ∈ portGroupChoices ports) : ∀ r ∈ c.toList, r.low ≤ r.high := by
  intro r hr
  rw [Option.mem_toList] at hr
  exact h r (Term.mem_of_some_mem_portGroupChoices (hr ▸ hc))

/-! ## Groups -/

theorem ObjectGroups.mem_of_mem_foldl_define {gs : ObjectGroups} {ds : List GroupDefinition} {d : GroupDefinition}
    (h : d ∈ (ds.foldl define gs).definitions) : d ∈ gs.definitions ∨ d ∈ ds := by
  induction ds generalizing gs with
  | nil => exact .inl h
  | cons d' ds ih =>
    rw [List.foldl_cons] at h
    rcases ih h with h | h
    · unfold define at h
      by_cases hany : gs.definitions.any (·.sameName d') = true
      · rw [if_pos hany] at h
        exact .inl h
      · rw [if_neg hany] at h
        rcases List.mem_append.mp h with h | h
        · exact .inl h
        · exact .inr (List.mem_singleton.mp h ▸ List.mem_cons_self ..)
    · exact .inr (List.mem_cons_of_mem _ h)

theorem Term.range_mem_of_groups {t : Term} {platform : String} {r : PortRange} (h : .ports r ∈ t.groups platform) :
    r ∈ t.sourcePorts ++ t.destinationPorts := by
  unfold Term.groups at h
  by_cases hout : (t.excludes platform || !t.verbatims.isEmpty) = true
  · rw [if_pos hout] at h
    cases h
  rw [if_neg hout] at h
  cases hs : t.addressGroup? .source with
  | none =>
    rw [hs] at h
    cases h
  | some source =>
    cases hd : t.addressGroup? .destination with
    | none =>
      rw [hs, hd] at h
      cases h
    | some destination =>
      rw [hs, hd] at h
      simpa using h

namespace Scope

variable {s : Scope} {type : FilterType} {family : Family} {t : Term}

theorem extended_ordered {rendering : Rendering ExtendedRule} (h : s.extended family t = .ok rendering)
    (hports : t.PortsOrdered) : ∀ r ∈ rendering.rules, ∀ range ∈ r.ranges, range.low ≤ range.high := by
  obtain ⟨hsource, hdestination⟩ := List.forall_mem_append.mp hports
  intro r hr
  cases extended_eq_iff.mp h with
  | rules =>
    obtain ⟨-, -, -, hsp, -, hdp, -⟩ := Term.mem_extendedRules_iff.mp hr
    exact List.forall_mem_append.mpr ⟨portChoices_ordered hsource hsp, portChoices_ordered hdestination hdp⟩
  | otherPlatform | icmp6 | verbatim | noSources | noDestinations => cases hr

theorem objectGroup_ordered {rendering : Rendering GroupRule} (h : s.objectGroup t = .ok rendering)
    (hports : t.PortsOrdered) : ∀ r ∈ rendering.rules, ∀ range ∈ r.ranges, range.low ≤ range.high := by
  obtain ⟨hsource, hdestination⟩ := List.forall_mem_append.mp hports
  intro r hr
  cases objectGroup_eq_iff.mp h with
  | rules =>
    obtain ⟨-, -, -, hsp, -, hdp, -⟩ := Term.mem_groupRules_iff.mp hr
    exact List.forall_mem_append.mpr ⟨portGroupChoices_ordered hsource hsp, portGroupChoices_ordered hdestination hdp⟩
  | otherPlatform | verbatim | noGroup => cases hr

/-- The lines are those that the term comes to in a filter of the type, and no range of its rules ends before it starts.
Standard rules have no ports. -/
def PrintsOrdered (s : Scope) (type : FilterType) (t : Term) (lines : List String) : Prop :=
  match type with
  | .standard => ∃ rendering, s.standard t = .ok rendering ∧ lines = rendering.lines (StandardRule.text s.filter)
  | .objectGroup => ∃ rendering, s.objectGroup t = .ok rendering ∧ lines = rendering.lines GroupRule.text ∧
      ∀ r ∈ rendering.rules, ∀ range ∈ r.ranges, range.low ≤ range.high
  | _ => ∃ rendering, s.extended type.family t = .ok rendering ∧
      lines = rendering.lines (ExtendedRule.text type.family) ∧
      ∀ r ∈ rendering.rules, ∀ range ∈ r.ranges, range.low ≤ range.high

theorem printsOrdered {why : Option Suppression} {lines : List String} (h : s.rendered type t = .ok (why, lines))
    (hports : t.PortsOrdered) : s.PrintsOrdered type t lines := by
  cases type with
  | standard =>
    obtain ⟨rendering, hok, heq⟩ := map_eq_ok_iff.mp h
    cases heq
    exact ⟨rendering, hok, rfl⟩
  | extended =>
    obtain ⟨rendering, hok, heq⟩ := map_eq_ok_iff.mp h
    cases heq
    exact ⟨rendering, hok, rfl, extended_ordered hok hports⟩
  | objectGroup =>
    obtain ⟨rendering, hok, heq⟩ := map_eq_ok_iff.mp h
    cases heq
    exact ⟨rendering, hok, rfl, objectGroup_ordered hok hports⟩
  | inet6 =>
    obtain ⟨rendering, hok, heq⟩ := map_eq_ok_iff.mp h
    cases heq
    exact ⟨rendering, hok, rfl, extended_ordered hok hports⟩

theorem collected_ordered {name : String} {ts : List Term} (hports : ∀ t ∈ ts, t.PortsOrdered) :
    ∀ r, .ports r ∈ (ts.foldl (s.collect type) { filter := name }).definitions → r.low ≤ r.high := by
  intro r hr
  by_cases htype : type = .objectGroup
  · subst htype
    rw [foldl_collect] at hr
    rcases ObjectGroups.mem_of_mem_foldl_define hr with hr | hr
    · cases hr
    · obtain ⟨t, ht, hr⟩ := List.mem_flatMap.mp hr
      exact hports t ht r (Term.range_mem_of_groups hr)
  · have hcollect : s.collect type = fun gs _ => gs := by
      funext gs t
      exact if_neg htype
    rw [hcollect, List.foldl_fixed] at hr
    cases hr

/-! ## Passes -/

variable {config : Config} {n : Nat} {name : String} {ts : List Term}

theorem portsOrdered_of_kept (hports : ∀ t ∈ ts, t.PortsOrdered) :
    ∀ t ∈ kept ⟨name, config, .standard n⟩ type ts, t.PortsOrdered := by
  intro t' ht'
  obtain ⟨t, ht, heq⟩ := List.mem_filterMap.mp ht'
  have hprepare := toOption_eq_some_iff.mp (Option.join_eq_some_iff.mp heq)
  obtain ⟨hopen, -⟩ := prepare_standard_iff.mp hprepare
  exact Term.portsOrdered_of_openHighPorts hopen (hports t ht)

/-- Whatever a pass prints of terms with their ranges in order has its ranges in order. -/
theorem terms_ordered {gs : ObjectGroups} {rts : List RenderedTerm} (hports : ∀ t ∈ ts, t.PortsOrdered)
    (h : (terms ⟨name, config, .standard n⟩ type { filter := name } ts).outcome = .ok (rts, gs)) :
    List.Forall₂ (fun t rt => PrintsOrdered ⟨name, config, .standard n⟩ type t rt.lines)
        (kept ⟨name, config, .standard n⟩ type ts) rts ∧
      ∀ r, .ports r ∈ gs.definitions → r.low ≤ r.high := by
  obtain ⟨-, hrendered, rfl⟩ := terms_eq_ok_iff.mp h
  have hkept := @portsOrdered_of_kept type config n name ts hports
  refine ⟨?_, collected_ordered hkept⟩
  refine ((List.forall₂_and_left _ _).mpr ⟨hkept, hrendered⟩).imp fun t rt hrt => ?_
  obtain ⟨hordered, hrenders⟩ := hrt
  obtain ⟨why, hlines⟩ := hrenders.lines
  exact printsOrdered hlines hordered

end Scope

end AccessList
