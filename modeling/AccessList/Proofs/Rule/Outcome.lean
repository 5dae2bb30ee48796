import AccessList.Rule.Extended
import AccessList.Rule.ObjectGroup
import AccessList.Rule.Standard

/-!
# What a term comes to

Each renderer asks one question after the other. Its outcomes are listed once, each with all the answers that lead to
it, and what a term comes to is read off that list.
-/

namespace AccessList.Scope

variable {s : Scope} {family : Family} {t : Term}

inductive StandardOutcome (s : Scope) (t : Term) : Except CompileError (Rendering StandardRule) → Prop
  | otherPlatform (hx : t.excludes s.platform = true) : StandardOutcome s t (.ok (.suppressed .otherPlatform))
  | verbatim (hx : t.excludes s.platform = false) (hv : t.verbatims ≠ []) :
    StandardOutcome s t (.ok (.block [] (.verbatim (t.verbatimFor s.platform))))
  | noAction (hx : t.excludes s.platform = false) (hv : t.verbatims = []) (ha : t.action? = none) :
    StandardOutcome s t (.error (.badTerm s.filter t.name .noAction))
  | rules {action : Action} (hx : t.excludes s.platform = false) (hv : t.verbatims = []) (ha : t.action? = some action) :
    StandardOutcome s t (.ok (.block (s.standardRemarks t) (.rules (t.standardRules action))))

theorem standard_cases (s : Scope) (t : Term) : StandardOutcome s t (s.standard t) := by
  unfold standard
  by_cases hx : t.excludes s.platform = true
  · rw [if_pos hx]
    exact .otherPlatform hx
  rw [if_neg hx]
  replace hx := Bool.eq_false_iff.mpr hx
  by_cases hv : t.verbatims = []
  · rw [if_neg (by simp [hv]), action]
    cases ha : t.action? with
    | none => exact .noAction hx hv ha
    | some action => exact .rules hx hv ha
  · rw [if_pos (by simp [hv])]
    exact .verbatim hx hv

theorem StandardOutcome.unique {x y : Except CompileError (Rendering StandardRule)} (h : StandardOutcome s t x)
    (h' : StandardOutcome s t y) : x = y := by
  -- Any two outcomes differ in the answer to some question.
  cases h <;> cases h' <;> simp_all

theorem standard_eq_iff {x : Except CompileError (Rendering StandardRule)} :
    s.standard t = x ↔ StandardOutcome s t x := by
  have houtcome := s.standard_cases t
  constructor
  · intro h
    exact h ▸ houtcome
  · intro h
    exact houtcome.unique h

inductive ExtendedOutcome (s : Scope) (family : Family) (t : Term) :
    Except CompileError (Rendering ExtendedRule) → Prop
  | otherPlatform (hx : t.excludes s.platform = true) : ExtendedOutcome s family t (.ok (.suppressed .otherPlatform))
  | icmp6 (hx : t.excludes s.platform = false) (h6 : family = .inet ∧ "icmpv6" ∈ t.protocols) :
    ExtendedOutcome s family t (.ok (.suppressed .icmp6))
  | verbatim (hx : t.excludes s.platform = false) (h6 : ¬(family = .inet ∧ "icmpv6" ∈ t.protocols))
    (hv : t.verbatims ≠ []) :
    ExtendedOutcome s family t (.ok (.block (s.extendedRemarks t) (.verbatim (t.verbatimFor s.platform))))
  | noAction (hx : t.excludes s.platform = false) (h6 : ¬(family = .inet ∧ "icmpv6" ∈ t.protocols))
    (hv : t.verbatims = []) (ha : t.action? = none) :
    ExtendedOutcome s family t (.error (.badTerm s.filter t.name .noAction))
  | noSources {action : Action} (hx : t.excludes s.platform = false)
    (h6 : ¬(family = .inet ∧ "icmpv6" ∈ t.protocols)) (hv : t.verbatims = []) (ha : t.action? = some action)
    (hs : t.endpoints? .source family = none) :
    ExtendedOutcome s family t (.ok (.suppressed (.noAddresses .source family)))
  | noDestinations {action : Action} {sources : List Endpoint} (hx : t.excludes s.platform = false)
    (h6 : ¬(family = .inet ∧ "icmpv6" ∈ t.protocols)) (hv : t.verbatims = []) (ha : t.action? = some action)
    (hs : t.endpoints? .source family = some sources) (hd : t.endpoints? .destination family = none) :
    ExtendedOutcome s family t (.ok (.suppressed (.noAddresses .destination family)))
  | badTypes {action : Action} {sources destinations : List Endpoint} {fault : RuleFault}
    (hx : t.excludes s.platform = false) (h6 : ¬(family = .inet ∧ "icmpv6" ∈ t.protocols)) (hv : t.verbatims = [])
    (ha : t.action? = some action) (hs : t.endpoints? .source family = some sources)
    (hd : t.endpoints? .destination family = some destinations) (hi : t.icmpChoices family = .error fault) :
    ExtendedOutcome s family t (.error (.badTerm s.filter t.name fault))
  | rules {action : Action} {sources destinations : List Endpoint} {icmpTypes : List (Option Nat)}
    (hx : t.excludes s.platform = false) (h6 : ¬(family = .inet ∧ "icmpv6" ∈ t.protocols)) (hv : t.verbatims = [])
    (ha : t.action? = some action) (hs : t.endpoints? .source family = some sources)
    (hd : t.endpoints? .destination family = some destinations) (hi : t.icmpChoices family = .ok icmpTypes) :
    ExtendedOutcome s family t (.ok (.block (s.extendedRemarks t)
      (.rules (t.extendedRules family s.config.settings.protocolForm action sources destinations icmpTypes))))

theorem extended_cases (s : Scope) (family : Family) (t : Term) :
    ExtendedOutcome s family t (s.extended family t) := by
  unfold extended
  by_cases hx : t.excludes s.platform = true
  · rw [if_pos hx]
    exact .otherPlatform hx
  rw [if_neg hx]
  replace hx := Bool.eq_false_iff.mpr hx
  by_cases h6 : family = .inet ∧ "icmpv6" ∈ t.protocols
  · rw [if_pos ⟨h6.1, List.contains_iff_mem.mpr h6.2⟩]
    exact .icmp6 hx h6
  rw [if_neg (by simpa using h6)]
  by_cases hv : t.verbatims = []
  · rw [if_neg (by simp [hv]), action]
    cases ha : t.action? with
    | none => exact .noAction hx h6 hv ha
    | some action =>
      cases hs : t.endpoints? .source family with
      | none => exact .noSources hx h6 hv ha hs
      | some sources =>
        cases hd : t.endpoints? .destination family with
        | none => exact .noDestinations hx h6 hv ha hs hd
        | some destinations =>
          cases hi : t.icmpChoices family with
          | error fault => exact .badTypes hx h6 hv ha hs hd hi
          | ok icmpTypes => exact .rules hx h6 hv ha hs hd hi
  · rw [if_pos (by simp [hv])]
    exact .verbatim hx h6 hv

theorem ExtendedOutcome.unique {x y : Except CompileError (Rendering ExtendedRule)} (h : ExtendedOutcome s family t x)
    (h' : ExtendedOutcome s family t y) : x = y := by
  cases h <;> cases h' <;> simp_all

theorem extended_eq_iff {x : Except CompileError (Rendering ExtendedRule)} :
    s.extended family t = x ↔ ExtendedOutcome s family t x := by
  have houtcome := s.extended_cases family t
  constructor
  · intro h
    exact h ▸ houtcome
  · intro h
    exact houtcome.unique h

inductive GroupOutcome (s : Scope) (t : Term) : Except CompileError (Rendering GroupRule) → Prop
  | otherPlatform (hx : t.excludes s.platform = true) : GroupOutcome s t (.ok (.suppressed .otherPlatform))
  | verbatim (hx : t.excludes s.platform = false) (hv : t.verbatims ≠ []) :
    GroupOutcome s t (.ok (.block (s.groupRemarks t) (.verbatim (t.verbatimFor s.platform))))
  | noGroup {side : Side} (hx : t.excludes s.platform = false) (hv : t.verbatims = [])
    (hside : t.addressGroup? side = none) : GroupOutcome s t (.ok (.suppressed .noGroup))
  | noAction {source destination : AddressGroup} (hx : t.excludes s.platform = false) (hv : t.verbatims = [])
    (hs : t.addressGroup? .source = some source) (hd : t.addressGroup? .destination = some destination)
    (ha : t.action? = none) : GroupOutcome s t (.error (.badTerm s.filter t.name .noAction))
  | rules {action : Action} {source destination : AddressGroup} (hx : t.excludes s.platform = false)
    (hv : t.verbatims = []) (hs : t.addressGroup? .source = some source)
    (hd : t.addressGroup? .destination = some destination) (ha : t.action? = some action) :
    GroupOutcome s t (.ok (.block (s.groupRemarks t)
      (.rules (t.groupRules s.config.settings.protocolForm action source destination))))

theorem objectGroup_cases (s : Scope) (t : Term) : GroupOutcome s t (s.objectGroup t) := by
  unfold objectGroup
  by_cases hx : t.excludes s.platform = true
  · rw [if_pos hx]
    exact .otherPlatform hx
  rw [if_neg hx]
  replace hx := Bool.eq_false_iff.mpr hx
  by_cases hv : t.verbatims = []
  · rw [if_neg (by simp [hv]), action]
    cases hs : t.addressGroup? .source with
    | none => exact .noGroup hx hv hs
    | some source =>
      cases hd : t.addressGroup? .destination with
      | none => exact .noGroup hx hv hd
      | some destination =>
        cases ha : t.action? with
        | none => exact .noAction hx hv hs hd ha
        | some action => exact .rules hx hv hs hd ha
  · rw [if_pos (by simp [hv])]
    exact .verbatim hx hv

theorem GroupOutcome.unique {x y : Except CompileError (Rendering GroupRule)} (h : GroupOutcome s t x)
    (h' : GroupOutcome s t y) : x = y := by
  have hnone : ∀ {side}, t.addressGroup? side = none →
      t.addressGroup? .source = none ∨ t.addressGroup? .destination = none := by
    intro side hside
    cases side with
    | source => exact .inl hside
    | destination => exact .inr hside
  cases h <;> cases h' <;> grind

theorem objectGroup_eq_iff {x : Except CompileError (Rendering GroupRule)} :
    s.objectGroup t = x ↔ GroupOutcome s t x := by
  have houtcome := s.objectGroup_cases t
  constructor
  · intro h
    exact h ▸ houtcome
  · intro h
    exact houtcome.unique h

end AccessList.Scope
