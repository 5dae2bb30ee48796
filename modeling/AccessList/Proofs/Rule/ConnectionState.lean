import AccessList.Proofs.HighPorts
import AccessList.Proofs.Rule.LineReading

/-!
# Opened ports and the state of connections

Ports are opened where an option starts with `established`, while rule lines ask for established connections where an
option is just that word, or `tcp-established`. So a line of TCP may have its ports opened and take new connections.
Lines of UDP ask for no connections in any case.
-/

namespace AccessList

/-- The rule lines that a term comes to in a filter of a type, each with its parts. The rules of a standard filter name
no protocol and take no options. -/
inductive Scope.WritesRule (s : Scope) (t : Term) : FilterType → RuleParts → String → Prop
  | extended {rendering : Rendering ExtendedRule} {r : ExtendedRule} (h : s.extended .inet t = .ok rendering)
    (hr : r ∈ rendering.rules) : WritesRule s t .extended (r.parts .inet) (r.text .inet)
  | inet6 {rendering : Rendering ExtendedRule} {r : ExtendedRule} (h : s.extended .inet6 t = .ok rendering)
    (hr : r ∈ rendering.rules) : WritesRule s t .inet6 (r.parts .inet6) (r.text .inet6)
  | objectGroup {rendering : Rendering GroupRule} {r : GroupRule} (h : s.objectGroup t = .ok rendering)
    (hr : r ∈ rendering.rules) : WritesRule s t .objectGroup r.parts r.text

/-! ## What the rules of a term have -/

namespace Term

variable {t : Term} {family : Family}

/-- Rules take established connections where an option is the word for it and one of the protocols is TCP. -/
theorem established_mem_ruleOptions_iff : .established ∈ t.ruleOptions ↔
    ("established" ∈ t.options ∨ "tcp-established" ∈ t.options) ∧
      ∃ p ∈ t.protocols, Protocol.denotes p "tcp" = true := by
  have hlog : RuleOption.established ∉ if t.logging then [RuleOption.log] else [] := by
    cases t.logging <;> decide
  unfold ruleOptions hasOption
  rw [List.mem_append, or_iff_left hlog]
  simp [or_comm]

end Term

/-- The word for TCP or UDP denotes what it stands for, in both forms. -/
theorem ProtocolForm.denotes_word (form : ProtocolForm) {p q : String} (hp : p = "tcp" ∨ p = "udp")
    (hq : q = "tcp" ∨ q = "udp") : Protocol.denotes (form.word p) q = true ↔ p = q := by
  rcases hp with rfl | rfl <;> rcases hq with rfl | rfl <;> cases form <;> decide +kernel

theorem Term.exists_of_mem_protocolWords {t : Term} {family : Family} {form : ProtocolForm} {w : String}
    (hne : t.protocols ≠ []) (hw : w ∈ t.protocolWords family form) : ∃ p ∈ t.protocols, w = form.word p := by
  rw [protocolWords, if_neg (mt List.isEmpty_iff.mp hne)] at hw
  obtain ⟨p, hp, rfl⟩ := List.mem_map.mp hw
  exact ⟨p, hp, rfl⟩

namespace Scope

variable {s : Scope} {t : Term} {type : FilterType}

/-- Every rule line of a term has a protocol of the term, and of the options of the term those that apply to it. -/
theorem WritesRule.eq_line {parts : RuleParts} {line : String} (h : s.WritesRule t type parts line) :
    line = parts.line ∧ parts.protocol ∈ t.protocolWords type.family s.config.settings.protocolForm ∧
      parts.options = t.ruleOptions.filter (·.applies parts.protocol) := by
  have hextended : ∀ {family rendering} {r : ExtendedRule}, s.extended family t = .ok rendering → r ∈ rendering.rules →
      r.protocol ∈ t.protocolWords family s.config.settings.protocolForm ∧ r.options = t.ruleOptions := by
    intro family rendering r h hr
    cases extended_eq_iff.mp h with
    | rules =>
      obtain ⟨-, hp, -, -, -, -, -, ho⟩ := Term.mem_extendedRules_iff.mp hr
      exact ⟨hp, ho⟩
    | otherPlatform | icmp6 | verbatim | noSources | noDestinations => cases hr
  cases h with
  | @extended rendering r h hr =>
    obtain ⟨hp, ho⟩ := hextended h hr
    exact ⟨r.text_eq_line .inet, hp, congrArg (·.filter (·.applies r.protocol)) ho⟩
  | @inet6 rendering r h hr =>
    obtain ⟨hp, ho⟩ := hextended h hr
    exact ⟨r.text_eq_line .inet6, hp, congrArg (·.filter (·.applies r.protocol)) ho⟩
  | @objectGroup rendering r h hr =>
    cases objectGroup_eq_iff.mp h with
    | rules =>
      obtain ⟨-, hp, -, -, -, -, ho⟩ := Term.mem_groupRules_iff.mp hr
      exact ⟨r.text_eq_line, hp, congrArg (·.filter (·.applies r.protocol)) ho⟩
    | otherPlatform | verbatim | noGroup => cases hr

/-- A term whose ports are opened is one of TCP and UDP. -/
theorem opened_of_prepare {config : Config} {n : Nat} {name : String} {t' : Term}
    (hprepare : (Scope.prepare ⟨name, config, .standard n⟩ type t).outcome = .ok (some t'))
    (hopened : t.wantsHighPorts = true) :
    (t'.protocols ≠ [] ∧ ∀ p ∈ t'.protocols, p = "tcp" ∨ p = "udp") ∧ t'.options = t.options ∧
      t'.destinationPorts = PortRange.withHigh t.destinationPorts := by
  obtain ⟨hopen, -⟩ := prepare_standard_iff.mp hprepare
  obtain ⟨hmay, ht'⟩ := Term.openHighPorts_eq_ok_iff.mp hopen
  -- Cutting the name changes neither the options nor the protocols.
  have hshort : { t with name := (Services.standard n).truncateName t.name }.wantsHighPorts = true := hopened
  rw [if_pos hshort] at ht'
  subst ht'
  exact ⟨hmay hopened, rfl, rfl⟩

/-- Where the ports of a term are opened, its rule lines are of TCP and UDP. A line of TCP ends in `established` just
where an option of the term is that word or `tcp-established`; a line of UDP never does. -/
theorem opened_ports_stateful_iff {config : Config} {n : Nat} {name : String} {t' : Term}
    (hprepare : (Scope.prepare ⟨name, config, .standard n⟩ type t).outcome = .ok (some t'))
    (hopened : t.wantsHighPorts = true) :
    (∀ p : Port, 1024 ≤ p.val → PortRange.Covers t'.destinationPorts p) ∧
    ∀ parts line, Scope.WritesRule ⟨name, config, .standard n⟩ t' type parts line →
      line = parts.line ∧
      (Protocol.denotes parts.protocol "tcp" = true ∨ Protocol.denotes parts.protocol "udp" = true) ∧
      (Protocol.denotes parts.protocol "tcp" = true →
        (.established ∈ parts.options ↔ "established" ∈ t.options ∨ "tcp-established" ∈ t.options)) ∧
      (Protocol.denotes parts.protocol "udp" = true → .established ∉ parts.options) := by
  obtain ⟨⟨hne, hstateful⟩, hoptions, hports⟩ := opened_of_prepare hprepare hopened
  refine ⟨fun p hp => ?_, fun parts line hline => ?_⟩
  · rw [hports, PortRange.covers_withHigh]
    exact .inr hp
  obtain ⟨hwhole, hword, hoptions'⟩ := hline.eq_line
  obtain ⟨q, hq, hprotocol⟩ := Term.exists_of_mem_protocolWords hne hword
  have hdenotes : ∀ {name}, name = "tcp" ∨ name = "udp" → (Protocol.denotes parts.protocol name = true ↔ q = name) := by
    rw [hprotocol]
    exact config.settings.protocolForm.denotes_word (hstateful q hq)
  have hmem : .established ∈ parts.options ↔ (("established" ∈ t.options ∨ "tcp-established" ∈ t.options) ∧
      ∃ p ∈ t'.protocols, Protocol.denotes p "tcp" = true) ∧ Protocol.denotes parts.protocol "udp" = false := by
    rw [hoptions', List.mem_filter, Term.established_mem_ruleOptions_iff, hoptions]
    simp [RuleOption.applies]
  refine ⟨hwhole, ?_, fun htcp => ?_, fun hudp => ?_⟩
  · rw [hdenotes (.inl rfl), hdenotes (.inr rfl)]
    exact hstateful q hq
  · have hq' : q = "tcp" := (hdenotes (.inl rfl)).mp htcp
    have hnot : Protocol.denotes parts.protocol "udp" = false := by
      rw [Bool.eq_false_iff, ne_eq, hdenotes (.inr rfl), hq']
      decide
    have hsome : ∃ p ∈ t'.protocols, Protocol.denotes p "tcp" = true := ⟨"tcp", hq' ▸ hq, rfl⟩
    rw [hmem, and_iff_left hnot, and_iff_left hsome]
  · rw [hmem, hudp]
    exact fun h => nomatch h.2

def markedAnswers (option : String) : Term where
  name := "answers"
  actions := [.accept]
  protocols := ["tcp", "udp"]
  options := [option]

def openedAnswers (option : String) : Term := { markedAnswers option with destinationPorts := [.ephemeral] }

def edge : Scope := ⟨"edge", ⟨{}, .greatest⟩, .standard 100⟩

theorem markedAnswers_stateful :
    (markedAnswers "established").wantsHighPorts = true ∧
      (edge.prepare .extended (markedAnswers "established")).outcome = .ok (some (openedAnswers "established")) ∧
      edge.rendered .extended (openedAnswers "established") = .ok (none, ["", " remark answers",
        " permit tcp any any range 1024 65535 established", " permit udp any any range 1024 65535"]) ∧
      ∀ parts line, edge.WritesRule (openedAnswers "established") .extended parts line →
        Protocol.denotes parts.protocol "tcp" = true → .established ∈ parts.options := by
  have hopened : (markedAnswers "established").wantsHighPorts = true := by decide
  have hprepare : (edge.prepare .extended (markedAnswers "established")).outcome =
      .ok (some (openedAnswers "established")) := by decide +kernel
  obtain ⟨-, h⟩ := opened_ports_stateful_iff hprepare hopened
  refine ⟨hopened, hprepare, by decide +kernel, fun parts line hline htcp => ?_⟩
  obtain ⟨-, -, hstateful, -⟩ := h parts line hline
  exact (hstateful htcp).mpr (.inl (by decide))

/-- An option that goes on behind `established` opens the ports of TCP to new connections. -/
theorem markedAnswers_stateless :
    (markedAnswers "established-only").wantsHighPorts = true ∧
      (edge.prepare .extended (markedAnswers "established-only")).outcome =
        .ok (some (openedAnswers "established-only")) ∧
      edge.rendered .extended (openedAnswers "established-only") = .ok (none, ["", " remark answers",
        " permit tcp any any range 1024 65535", " permit udp any any range 1024 65535"]) ∧
      ∃ parts, edge.WritesRule (openedAnswers "established-only") .extended parts
          " permit tcp any any range 1024 65535" ∧
        Protocol.denotes parts.protocol "tcp" = true ∧ .established ∉ parts.options := by
  let rule : ExtendedRule := ⟨.accept, "tcp", .any, none, .any, some .ephemeral, none, []⟩
  have hrules := (@extended_eq_iff edge .inet (openedAnswers "established-only") _).mpr
    (.rules (by decide) (by decide) rfl rfl rfl rfl rfl)
  have hrule : rule ∈ (openedAnswers "established-only").extendedRules .inet .name .accept [.any] [.any] [none] := by
    decide +kernel
  have htext : rule.text .inet = " permit tcp any any range 1024 65535" := by decide +kernel
  refine ⟨by decide, by decide +kernel, by decide +kernel, rule.parts .inet, ?_, rfl, by decide⟩
  rw [← htext]
  exact .extended hrules hrule

end Scope

end AccessList
