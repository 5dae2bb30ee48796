import AccessList.Proofs.Net.Subtraction
import AccessList.Proofs.PortRange
import AccessList.Proofs.Rule.LineMatching
import AccessList.Proofs.Rule.Outcome
import AccessList.Proofs.Traversal

/-!
# Extended and inet6 rules mean what their term declares

The rules of a term are a product, so some rule matches a packet just when in each factor some choice does. Each
factor is settled by itself: sides by subtraction, ports by splitting, ICMP types by their codes.
-/

namespace AccessList

namespace Term

def Takes (t : Term) (side : Side) (family : Family) (x : Address) : Prop :=
  t.declared side = [] ∨
    (∃ a ∈ t.declared side, a.family = family ∧ x ∈ a.block) ∧
      ∀ e ∈ t.excluded side, e.family = family → x ∉ e.block

structure Declares (t : Term) (family : Family) (k : Packet) : Prop where
  source : t.Takes .source family k.source
  destination : t.Takes .destination family k.destination
  sourcePort : t.sourcePorts = [] ∨ ∃ r ∈ t.sourcePorts, k.sourcePort ∈ r
  destinationPort : t.destinationPorts = [] ∨ ∃ r ∈ t.destinationPorts, k.destinationPort ∈ r
  icmpType : t.icmpTypes = [] ∨ ∃ name ∈ t.icmpTypes, icmpCode? family name = some k.icmpCode

instance (t : Term) (side : Side) (family : Family) (x : Address) : Decidable (t.Takes side family x) :=
  inferInstanceAs (Decidable (_ ∨ _ ∧ _))

instance (t : Term) (family : Family) (k : Packet) : Decidable (t.Declares family k) :=
  decidable_of_iff
    (t.Takes .source family k.source ∧ t.Takes .destination family k.destination ∧
      (t.sourcePorts = [] ∨ ∃ r ∈ t.sourcePorts, k.sourcePort ∈ r) ∧
      (t.destinationPorts = [] ∨ ∃ r ∈ t.destinationPorts, k.destinationPort ∈ r) ∧
      (t.icmpTypes = [] ∨ ∃ name ∈ t.icmpTypes, icmpCode? family name = some k.icmpCode))
    ⟨fun ⟨hs, hd, hsp, hdp, hi⟩ => ⟨hs, hd, hsp, hdp, hi⟩, fun ⟨hs, hd, hsp, hdp, hi⟩ => ⟨hs, hd, hsp, hdp, hi⟩⟩

/-! ## Sides -/

variable {t : Term} {side : Side} {family : Family}

theorem remaining_covered (t : Term) (side : Side) (family : Family) (x : Address) :
    (∃ b ∈ t.remaining side family, x ∈ b.block) ↔
      (∃ a ∈ t.declared side, a.family = family ∧ x ∈ a.block) ∧
        ∀ e ∈ t.excluded side, e.family = family → x ∉ e.block := by
  unfold remaining
  rw [Tagged.covered_without]
  simp only [Tagged.mem_ofFamily, and_assoc, and_imp]

theorem family_of_mem_remaining {b : Tagged} (hb : b ∈ t.remaining side family) : b.family = family := by
  obtain ⟨⟨a, -, haf, hba⟩, -⟩ := (remaining_covered t side family b.block.address).mp
    ⟨b, hb, b.block.address_mem⟩
  exact hba.1.trans haf

theorem endpoints?_eq_some_iff {es : List Endpoint} :
    t.endpoints? side family = some es ↔
      t.declared side = [] ∧ es = [.any] ∨
        t.declared side ≠ [] ∧ t.remaining side family ≠ [] ∧
          es = (t.remaining side family).map (.block ·.block) := by
  unfold endpoints?
  by_cases hd : t.declared side = []
  · rw [if_pos (List.isEmpty_iff.mpr hd), Option.some_inj, @eq_comm _ _ es]
    simp [hd]
  · rw [if_neg (mt List.isEmpty_iff.mp hd)]
    cases hr : t.remaining side family with
    | nil => simp [hd]
    | cons b bs =>
      rw [Option.some_inj, @eq_comm _ _ es]
      simp [hd]

theorem endpoints?_eq_none_iff :
    t.endpoints? side family = none ↔ t.declared side ≠ [] ∧ t.remaining side family = [] := by
  unfold endpoints?
  by_cases hd : t.declared side = []
  · simp [hd]
  · rw [if_neg (mt List.isEmpty_iff.mp hd)]
    cases t.remaining side family with
    | nil => simp [hd]
    | cons b bs => simp

theorem endpoints_match_iff {es : List Endpoint} (h : t.endpoints? side family = some es) (x : Address) :
    (∃ e ∈ es, e.pattern.Matches x) ↔ t.Takes side family x := by
  unfold Takes
  rcases endpoints?_eq_some_iff.mp h with ⟨hd, rfl⟩ | ⟨hd, -, rfl⟩
  · simp [hd, Endpoint.pattern, AddressPattern.Matches]
  · rw [← remaining_covered]
    simp only [hd, false_or]
    constructor
    · rintro ⟨e, he, hx⟩
      obtain ⟨b, hb, rfl⟩ := List.mem_map.mp he
      exact ⟨b, hb, (b.block.pattern_matches_iff x).mp hx⟩
    · rintro ⟨b, hb, hx⟩
      exact ⟨.block b.block, List.mem_map_of_mem hb, (b.block.pattern_matches_iff x).mpr hx⟩

theorem endpoint_ofFamily {es : List Endpoint} (h : t.endpoints? side family = some es) {e : Endpoint}
    (he : e ∈ es) : e.pattern.OfFamily family := by
  rcases endpoints?_eq_some_iff.mp h with ⟨-, rfl⟩ | ⟨-, -, rfl⟩
  · rw [List.mem_singleton.mp he]
    exact True.intro
  · obtain ⟨b, hb, rfl⟩ := List.mem_map.mp he
    have hf : b.block.family = family := family_of_mem_remaining hb
    exact hf ▸ b.block.pattern_ofFamily

/-! ## Ports and ICMP types -/

theorem exists_some_iff {α : Type} (as : List α) (P : α → Prop) :
    (∃ c ∈ as.map some, ∀ a ∈ c, P a) ↔ ∃ a ∈ as, P a := by
  constructor
  · rintro ⟨c, hc, hP⟩
    obtain ⟨a, ha, rfl⟩ := List.mem_map.mp hc
    exact ⟨a, ha, hP a rfl⟩
  · rintro ⟨a, ha, hP⟩
    refine ⟨some a, List.mem_map_of_mem ha, fun a' ha' => ?_⟩
    cases ha'
    exact hP

theorem portChoices_match_iff (ports : List PortRange) (p : Port) :
    (∃ c ∈ portChoices ports, ∀ r ∈ c, p ∈ r) ↔ ports = [] ∨ ∃ r ∈ ports, p ∈ r := by
  unfold portChoices
  by_cases h : ports = []
  · simp [h]
  · rw [if_neg (mt List.isEmpty_iff.mp h), ← PortRange.mem_splitPairs_iff, exists_some_iff]
    simp [h]

theorem icmpCodes_mem {codes : List Nat} (h : t.icmpCodes family = .ok codes) (code : Nat) :
    code ∈ codes ↔ ∃ name ∈ t.icmpTypes, icmpCode? family name = some code := by
  unfold icmpCodes at h
  split at h
  · split at h
    · cases h
    · split at h
      · cases h
      · rw [mem_of_mapM_ok h]
        refine exists_congr fun name => and_congr_right fun _ => ?_
        cases icmpCode? family name <;> simp
  · cases h

theorem icmpChoices_match_iff {cs : List (Option Nat)} (h : t.icmpChoices family = .ok cs) (n : Nat) :
    (∃ c ∈ cs, ∀ code ∈ c, code = n) ↔
      t.icmpTypes = [] ∨ ∃ name ∈ t.icmpTypes, icmpCode? family name = some n := by
  unfold icmpChoices at h
  by_cases ht : t.icmpTypes = []
  · rw [if_pos (List.isEmpty_iff.mpr ht)] at h
    cases h
    simp [ht]
  · rw [if_neg (mt List.isEmpty_iff.mp ht)] at h
    cases hc : t.icmpCodes family with
    | error e => rw [hc] at h; cases h
    | ok codes =>
      rw [hc] at h
      cases h
      rw [← icmpCodes_mem hc, exists_some_iff codes (· = n)]
      simp [ht]

/-! ## The product -/

theorem mem_extendedRules_iff {form : ProtocolForm} {action : Action} {sources destinations : List Endpoint}
    {icmpTypes : List (Option Nat)} {r : ExtendedRule} :
    r ∈ t.extendedRules family form action sources destinations icmpTypes ↔
      r.action = action ∧ r.protocol ∈ t.protocolWords family form ∧ r.source ∈ sources ∧
        r.sourcePorts ∈ portChoices t.sourcePorts ∧ r.destination ∈ destinations ∧
        r.destinationPorts ∈ portChoices t.destinationPorts ∧ r.icmpType ∈ icmpTypes ∧
        r.options = t.ruleOptions := by
  simp only [extendedRules, List.mem_flatMap, List.mem_map]
  constructor
  · rintro ⟨source, hs, destination, hd, sp, hsp, dp, hdp, protocol, hp, icmpType, hi, rfl⟩
    exact ⟨rfl, hp, hs, hsp, hd, hdp, hi, rfl⟩
  · obtain ⟨a, protocol, source, sp, destination, dp, icmpType, options⟩ := r
    rintro ⟨rfl, hp, hs, hsp, hd, hdp, hi, rfl⟩
    exact ⟨source, hs, destination, hd, sp, hsp, dp, hdp, protocol, hp, icmpType, hi, rfl⟩

/-- Some rule matches just when some choice of every factor does. -/
theorem extendedRules_match_iff {form : ProtocolForm} {action : Action} {sources destinations : List Endpoint}
    {icmpTypes : List (Option Nat)} {k : Packet} (hk : k.protocol ∈ t.protocolWords family form) :
    (∃ r ∈ t.extendedRules family form action sources destinations icmpTypes, r.Matches k) ↔
      (∃ e ∈ sources, e.pattern.Matches k.source) ∧ (∃ e ∈ destinations, e.pattern.Matches k.destination) ∧
        (∃ c ∈ portChoices t.sourcePorts, ∀ ports ∈ c, k.sourcePort ∈ ports) ∧
        (∃ c ∈ portChoices t.destinationPorts, ∀ ports ∈ c, k.destinationPort ∈ ports) ∧
        ∃ c ∈ icmpTypes, ∀ code ∈ c, code = k.icmpCode := by
  constructor
  · rintro ⟨r, hr, hm⟩
    obtain ⟨-, -, hs, hsp, hd, hdp, hi, -⟩ := mem_extendedRules_iff.mp hr
    exact ⟨⟨_, hs, hm.source⟩, ⟨_, hd, hm.destination⟩, ⟨_, hsp, hm.sourcePort⟩, ⟨_, hdp, hm.destinationPort⟩,
      ⟨_, hi, hm.icmpCode⟩⟩
  · rintro ⟨⟨source, hs, ms⟩, ⟨destination, hd, md⟩, ⟨sp, hsp, msp⟩, ⟨dp, hdp, mdp⟩, ⟨icmpType, hi, mi⟩⟩
    exact ⟨⟨action, k.protocol, source, sp, destination, dp, icmpType, t.ruleOptions⟩,
      mem_extendedRules_iff.mpr ⟨rfl, hk, hs, hsp, hd, hdp, hi, rfl⟩, rfl, ms, md, msp, mdp, mi⟩

end Term

namespace Scope

variable {s : Scope} {family : Family} {t : Term} {rendering : Rendering ExtendedRule}

theorem not_lineMatches_remark {line : String} (hline : line ∈ s.extendedRemarks t) (k : Packet) :
    ¬LineMatches family line k := by
  have hwords : Text.words line.toList = [] ∨ (Text.words line.toList).head? = some "remark".toList := by
    have hremark : ∀ text, (Text.words (" remark " ++ text).toList).head? = some "remark".toList := by
      intro text
      have htext : (" remark " ++ text).toList = ' ' :: ("remark".toList ++ ' ' :: text.toList) := by simp
      rw [htext, Text.words_cons_blank rfl, Text.words_append_blank _ _ rfl]
      rfl
    simp only [extendedRemarks, List.mem_cons, List.mem_map] at hline
    rcases hline with rfl | rfl | ⟨text, -, rfl⟩
    · exact .inl rfl
    · exact .inr (hremark _)
    · exact .inr (hremark _)
  rintro ⟨action, c, ⟨ws, heq, -⟩, -⟩
  have hkeyword : Text.words action.keyword.toList ≠ [] ∧
      (Text.words action.keyword.toList).head? ≠ some "remark".toList := by
    cases action <;> decide
  rcases hwords with hwords | hwords
  · rw [hwords] at heq
    exact hkeyword.1 (List.append_eq_nil_iff.mp heq.symm).1
  · rw [heq, List.head?_append_of_ne_nil _ hkeyword.1] at hwords
    exact hkeyword.2 hwords

/-- A packet that a line of a term matches is matched by a rule of the packet's protocol. -/
theorem lines_match_iff (h : s.extended family t = .ok rendering) (hrules : rendering.rules ≠ []) {k : Packet}
    (hk : k.protocol ∈ t.protocolWords family s.config.settings.protocolForm) :
    (∃ line ∈ rendering.lines (ExtendedRule.text family), LineMatches family line k) ↔
      ∃ r ∈ rendering.rules, r.Matches k := by
  cases extended_eq_iff.mp h with
  | otherPlatform | icmp6 | verbatim | noSources | noDestinations => exact absurd rfl hrules
  | rules =>
    constructor
    · rintro ⟨line, hline, hm⟩
      rcases List.mem_append.mp hline with hline | hline
      · exact absurd hm (not_lineMatches_remark hline k)
      · obtain ⟨r, hr, rfl⟩ := List.mem_map.mp hline
        obtain ⟨-, hm⟩ := (r.lineMatches_text_iff family k).mp hm
        obtain ⟨ha, -, hs, hsp, hd, hdp, hi, ho⟩ := Term.mem_extendedRules_iff.mp hr
        -- Two protocols of a term may have the same words.
        refine ⟨{ r with protocol := k.protocol }, ?_, rfl, hm.source, hm.destination, hm.sourcePort,
          hm.destinationPort, hm.icmpCode⟩
        exact Term.mem_extendedRules_iff.mpr ⟨ha, hk, hs, hsp, hd, hdp, hi, ho⟩
    · rintro ⟨r, hr, hm⟩
      refine ⟨r.text family, List.mem_append_right _ (List.mem_map_of_mem hr), ?_⟩
      rw [r.lineMatches_text_iff, hm.protocol]
      exact ⟨rfl, hm.source, hm.destination, hm.sourcePort, hm.destinationPort, hm.icmpCode⟩

/-- The lines of a term match just the packets of their family that the term declares. Each is a remark or reads as a
rule with the keyword of the first action, a protocol of the term and addresses of the family. -/
theorem extended_matches_iff_declares (h : s.extended family t = .ok rendering) (hrules : rendering.rules ≠ []) :
    (∀ k : Packet, k.protocol ∈ t.protocolWords family s.config.settings.protocolForm →
      ((∃ line ∈ rendering.lines (ExtendedRule.text family), LineMatches family line k) ↔ t.Declares family k)) ∧
    ∀ line ∈ rendering.lines (ExtendedRule.text family), line ∈ s.extendedRemarks t ∨
      ∃ action, t.action? = some action ∧
        ∃ protocol ∈ t.protocolWords family s.config.settings.protocolForm, ∃ c, ReadsAs family line action protocol c ∧
          c.source.OfFamily family ∧ c.destination.OfFamily family ∧
          c.options = t.ruleOptions.filter (·.applies protocol) := by
  constructor
  · intro k hk
    rw [lines_match_iff h hrules hk]
    cases extended_eq_iff.mp h with
    | otherPlatform | icmp6 | verbatim | noSources | noDestinations => exact absurd rfl hrules
    | rules hx h6 hv ha hs hd hi =>
      refine (Term.extendedRules_match_iff hk).trans ?_
      rw [Term.endpoints_match_iff hs, Term.endpoints_match_iff hd,
        Term.portChoices_match_iff, Term.portChoices_match_iff, Term.icmpChoices_match_iff hi]
      constructor
      · rintro ⟨ms, md, msp, mdp, mi⟩
        exact ⟨ms, md, msp, mdp, mi⟩
      · rintro ⟨ms, md, msp, mdp, mi⟩
        exact ⟨ms, md, msp, mdp, mi⟩
  · intro line hline
    cases extended_eq_iff.mp h with
    | otherPlatform | icmp6 | verbatim | noSources | noDestinations => exact absurd rfl hrules
    | rules hx h6 hv ha hs hd hi =>
      rcases List.mem_append.mp hline with hline | hline
      · exact .inl hline
      · obtain ⟨r, hr, rfl⟩ := List.mem_map.mp hline
        obtain ⟨hra, hrp, hrs, -, hrd, -, -, hro⟩ := Term.mem_extendedRules_iff.mp hr
        refine .inr ⟨r.action, hra ▸ ha, r.protocol, hrp, r.clauses, r.readsAs_text family,
          Term.endpoint_ofFamily hs hrs, Term.endpoint_ofFamily hd hrd, ?_⟩
        exact congrArg (·.filter (·.applies r.protocol)) hro

/-- TCP to ports 80 and 81 from 192.0.2.0/24 without its upper half. -/
def holedTerm : Term where
  name := "web"
  actions := [.accept]
  protocols := ["tcp"]
  sources := [{ block := ⟨⟨.inet, 0xC0000200, by decide⟩, 24, by decide⟩ }]
  sourceExcludes := [{ block := ⟨⟨.inet, 0xC0000280, by decide⟩, 25, by decide⟩ }]
  destinationPorts := [⟨⟨80, by decide⟩, ⟨81, by decide⟩⟩]

def webPacket (source : Nat) (h : source < Family.inet.count) : Packet :=
  ⟨⟨.inet, source, h⟩, .zero .inet, ⟨40000, by decide⟩, ⟨81, by decide⟩, "tcp", 0⟩

theorem holedTerm_matches :
    ∃ rendering, Scope.extended ⟨"edge", ⟨{}, .greatest⟩, .plain⟩ .inet holedTerm = .ok rendering ∧
      rendering.rules ≠ [] ∧
      rendering.lines (ExtendedRule.text .inet) = ["", " remark web",
        " permit tcp 192.0.2.0 0.0.0.127 any eq www", " permit tcp 192.0.2.0 0.0.0.127 any eq 81"] ∧
      (∃ line ∈ rendering.lines (ExtendedRule.text .inet),
        LineMatches .inet line (webPacket 0xC0000205 (by decide))) ∧
      ¬∃ line ∈ rendering.lines (ExtendedRule.text .inet),
        LineMatches .inet line (webPacket 0xC0000285 (by decide)) := by
  have hs : holedTerm.endpoints? .source .inet =
      some [.block ⟨⟨.inet, 0xC0000200, by decide⟩, 25, by decide⟩] := by decide +kernel
  have h := (@extended_eq_iff ⟨"edge", ⟨{}, .greatest⟩, .plain⟩ .inet holedTerm _).mpr
    (.rules rfl (by decide) rfl rfl hs rfl rfl)
  have hrules : holedTerm.extendedRules .inet .name .accept
      [.block ⟨⟨.inet, 0xC0000200, by decide⟩, 25, by decide⟩] [.any] [none] ≠ [] := by decide +kernel
  obtain ⟨hm, -⟩ := extended_matches_iff_declares h hrules
  exact ⟨_, h, hrules, by decide +kernel, (hm _ (by decide)).mpr (by decide),
    fun hx => absurd ((hm _ (by decide)).mp hx) (by decide)⟩

end Scope

end AccessList
