import AccessList.Assemble
import AccessList.Proofs.Compile.Refusals
import AccessList.Proofs.Rule.ProtocolForm

/-!
# TCP and UDP by name and by number

Where rules write protocols by number, a policy may give TCP and UDP by number just as well, with one exception: the
ports of answers are opened to protocols that go by these names. A term that asks for that by number is refused.
-/

namespace AccessList

/-! ## Numbers for names -/

namespace Protocol

def numbered (p : String) : String := if p = "tcp" then "6" else if p = "udp" then "17" else p

theorem numbered_of_ne {p : String} (htcp : p ≠ "tcp") (hudp : p ≠ "udp") : numbered p = p := by
  unfold numbered
  rw [if_neg htcp, if_neg hudp]

/-- No protocol but these two is taken for another one. -/
theorem numbered_eq_iff {p q : String} (hq : numbered q = q) (h6 : q ≠ "6") (h17 : q ≠ "17") :
    numbered p = q ↔ p = q := by
  refine ⟨fun h => ?_, fun h => h ▸ hq⟩
  by_cases htcp : p = "tcp"
  · exact absurd (htcp ▸ h).symm h6
  by_cases hudp : p = "udp"
  · exact absurd (hudp ▸ h).symm h17
  rwa [numbered_of_ne htcp hudp] at h

theorem denotes_numbered {p q : String} (hq : q = "tcp" ∨ q = "udp") : denotes (numbered p) q = denotes p q := by
  by_cases htcp : p = "tcp"
  · subst htcp
    rcases hq with rfl | rfl
    · decide +kernel
    · decide +kernel
  by_cases hudp : p = "udp"
  · subst hudp
    rcases hq with rfl | rfl
    · decide +kernel
    · decide +kernel
  rw [numbered_of_ne htcp hudp]

theorem word_numbered (p : String) : ProtocolForm.number.word (numbered p) = ProtocolForm.number.word p := by
  by_cases htcp : p = "tcp"
  · subst htcp
    decide +kernel
  by_cases hudp : p = "udp"
  · subst hudp
    decide +kernel
  rw [numbered_of_ne htcp hudp]

end Protocol

namespace Term

def numbered (t : Term) : Term := { t with protocols := t.protocols.map Protocol.numbered }

variable {t : Term} {family : Family}

theorem ruleOptions_numbered : t.numbered.ruleOptions = t.ruleOptions := by
  have htcp : t.numbered.protocols.any (Protocol.denotes · "tcp") = t.protocols.any (Protocol.denotes · "tcp") := by
    simp only [numbered, List.any_map, Function.comp_def, Protocol.denotes_numbered (.inl rfl)]
  unfold ruleOptions
  rw [htcp]
  rfl

theorem protocolWords_numbered : t.numbered.protocolWords family .number = t.protocolWords family .number := by
  simp only [protocolWords, numbered, List.isEmpty_map, List.map_map, Function.comp_def, Protocol.word_numbered]

theorem icmp6_mem_numbered : "icmpv6" ∈ t.numbered.protocols ↔ "icmpv6" ∈ t.protocols := by
  have hsame : ∀ p, Protocol.numbered p = "icmpv6" ↔ p = "icmpv6" := fun p =>
    Protocol.numbered_eq_iff (by decide) (by decide) (by decide)
  simp [numbered, hsame]

theorem icmpCodes_numbered {codes : List Nat} :
    t.numbered.icmpCodes family = .ok codes ↔ t.icmpCodes family = .ok codes := by
  have hicmp : ∀ p, Protocol.numbered p = "icmp" ↔ p = "icmp" := fun p =>
    Protocol.numbered_eq_iff (by decide) (by decide) (by decide)
  have hicmp6 : ∀ p, Protocol.numbered p = "icmpv6" ↔ p = "icmpv6" := fun p =>
    Protocol.numbered_eq_iff (by decide) (by decide) (by decide)
  unfold icmpCodes
  rw [show t.numbered.protocols = t.protocols.map Protocol.numbered from rfl,
    show t.numbered.icmpTypes = t.icmpTypes from rfl]
  rcases t.protocols with _ | ⟨p, _ | ⟨q, ps⟩⟩
  · simp
  · rw [List.map_singleton]
    by_cases hp : p ≠ "icmp" ∧ p ≠ "icmpv6"
    · have hp' : Protocol.numbered p ≠ "icmp" ∧ Protocol.numbered p ≠ "icmpv6" := by simpa [hicmp, hicmp6] using hp
      simp [hp, hp']
    · have hsame : Protocol.numbered p = p := by
        rcases Decidable.not_and_iff_not_or_not.mp hp with h | h
        · rw [not_not.mp h]
          rfl
        · rw [not_not.mp h]
          rfl
      rw [hsame]
  · simp

theorem icmpChoices_numbered {choices : List (Option Nat)} :
    t.numbered.icmpChoices family = .ok choices ↔ t.icmpChoices family = .ok choices := by
  unfold icmpChoices
  rw [show t.numbered.icmpTypes = t.icmpTypes from rfl]
  by_cases h : t.icmpTypes.isEmpty = true
  · rw [if_pos h, if_pos h]
  · rw [if_neg h, if_neg h]
    simp only [map_eq_ok_iff, icmpCodes_numbered]

end Term

/-! ## Terms -/

namespace Scope

variable {s : Scope} {type : FilterType} {family : Family} {t : Term}

section
variable (hform : s.config.settings.protocolForm = .number)
include hform

/-- The errors need not be the same: one that is about ICMP types names the protocol. -/
theorem extended_numbered {rendering : Rendering ExtendedRule} :
    s.extended family t.numbered = .ok rendering ↔ s.extended family t = .ok rendering := by
  have h6same : (family = .inet ∧ "icmpv6" ∈ t.numbered.protocols) ↔ family = .inet ∧ "icmpv6" ∈ t.protocols :=
    and_congr_right fun _ => Term.icmp6_mem_numbered
  generalize houtcome : s.extended family t = outcome
  cases extended_eq_iff.mp houtcome with
  | otherPlatform hx => rw [extended_eq_iff.mpr (.otherPlatform (t := t.numbered) hx)]
  | icmp6 hx h6 => rw [extended_eq_iff.mpr (.icmp6 (t := t.numbered) hx (h6same.mpr h6))]
  | verbatim hx h6 hv =>
    rw [extended_eq_iff.mpr (.verbatim (t := t.numbered) hx (mt h6same.mp h6) hv)]
    rfl
  | noAction hx h6 hv ha => rw [extended_eq_iff.mpr (.noAction (t := t.numbered) hx (mt h6same.mp h6) hv ha)]; rfl
  | noSources hx h6 hv ha hs =>
    rw [extended_eq_iff.mpr (.noSources (t := t.numbered) hx (mt h6same.mp h6) hv ha hs)]
  | noDestinations hx h6 hv ha hs hd =>
    rw [extended_eq_iff.mpr (.noDestinations (t := t.numbered) hx (mt h6same.mp h6) hv ha hs hd)]
  | badTypes hx h6 hv ha hs hd hi =>
    cases hi' : t.numbered.icmpChoices family with
    | error fault' =>
      rw [extended_eq_iff.mpr (.badTypes (t := t.numbered) hx (mt h6same.mp h6) hv ha hs hd hi')]
      simp
    | ok choices =>
      rw [Term.icmpChoices_numbered, hi] at hi'
      cases hi'
  | @rules action sources destinations icmpTypes hx h6 hv ha hs hd hi =>
    have hi' := Term.icmpChoices_numbered.mpr hi
    have hrules : t.numbered.extendedRules family .number action sources destinations icmpTypes =
        t.extendedRules family .number action sources destinations icmpTypes := by
      unfold Term.extendedRules
      rw [Term.protocolWords_numbered, Term.ruleOptions_numbered]
      rfl
    rw [extended_eq_iff.mpr (.rules (t := t.numbered) hx (mt h6same.mp h6) hv ha hs hd hi'), hform, hrules]
    rfl

theorem objectGroup_numbered : s.objectGroup t.numbered = s.objectGroup t := by
  rw [objectGroup_eq_iff]
  generalize houtcome : s.objectGroup t = outcome
  cases objectGroup_eq_iff.mp houtcome with
  | otherPlatform hx => exact .otherPlatform hx
  | verbatim hx hv => exact .verbatim hx hv
  | noGroup hx hv hside => exact .noGroup hx hv hside
  | noAction hx hv hs hd ha => exact .noAction hx hv hs hd ha
  | @rules action source destination hx hv hs hd ha =>
    have hrules : t.groupRules .number action source destination =
        t.numbered.groupRules .number action source destination := by
      unfold Term.groupRules
      rw [Term.protocolWords_numbered, Term.ruleOptions_numbered]
      rfl
    rw [hform, hrules, ← hform]
    exact .rules hx hv hs hd ha

theorem rendered_numbered {why : Option Suppression} {lines : List String} :
    s.rendered type t.numbered = .ok (why, lines) ↔ s.rendered type t = .ok (why, lines) := by
  cases type with
  | standard => exact Iff.rfl
  | extended => simp only [rendered, map_eq_ok_iff, extended_numbered hform]
  | objectGroup => simp only [rendered, objectGroup_numbered hform]
  | inet6 => simp only [rendered, map_eq_ok_iff, extended_numbered hform]

end

theorem check_numbered : (s.check type t.numbered).outcome = (s.check type t).outcome := by
  have hforbidden : t.numbered.forbiddenField? = t.forbiddenField? := by
    have hprotocols : t.numbered.protocols.isEmpty = t.protocols.isEmpty := List.isEmpty_map
    unfold Term.forbiddenField?
    rw [hprotocols]
    rfl
  cases type with
  | standard =>
    unfold check checkStandard
    simp only [hforbidden]
    rfl
  | extended => rfl
  | objectGroup => rfl
  | inet6 => rfl

/-! ## Preparing terms -/

variable {config : Config} {n : Nat} {name : String} {ts : List Term}

/-- By number, ports are never opened. -/
theorem mayOpenPorts_numbered : t.numbered.MayOpenPorts ↔ t.wantsHighPorts = false := by
  have hwants : t.numbered.wantsHighPorts = t.wantsHighPorts := rfl
  have hnone : ¬(t.numbered.protocols ≠ [] ∧ ∀ p ∈ t.numbered.protocols, p = "tcp" ∨ p = "udp") := by
    intro h
    obtain ⟨p, ps, hp⟩ := List.exists_cons_of_ne_nil h.1
    have hmem : p ∈ t.numbered.protocols := hp ▸ List.mem_cons_self ..
    obtain ⟨q, -, rfl⟩ := List.mem_map.mp hmem
    have hword := h.2 (Protocol.numbered q) (hp ▸ List.mem_cons_self ..)
    by_cases htcp : q = "tcp"
    · subst htcp
      revert hword
      decide
    by_cases hudp : q = "udp"
    · subst hudp
      revert hword
      decide
    rw [Protocol.numbered_of_ne htcp hudp] at hword
    exact hword.elim htcp hudp
  unfold Term.MayOpenPorts
  rw [hwants]
  by_cases hw : t.wantsHighPorts = true
  · simp [hw, hnone]
  · simp [hw]

theorem prepare_numbered (hw : t.wantsHighPorts = false) :
    (prepare ⟨name, config, .standard n⟩ type t.numbered).outcome =
      (prepare ⟨name, config, .standard n⟩ type t).outcome.map (·.map Term.numbered) := by
  have hopen : t.MayOpenPorts := by
    intro h
    rw [hw] at h
    cases h
  obtain ⟨ports, hprep, hsame⟩ := @prepare_of_mayOpen config n t hopen name type
  obtain ⟨ports', hprep', hsame'⟩ := @prepare_of_mayOpen config n t.numbered (mayOpenPorts_numbered.mpr hw) name type
  have hports : ports = t.destinationPorts := hsame hw
  have hports' : ports' = t.destinationPorts := hsame' hw
  rw [hprep, hprep', hports, hports']
  by_cases hexpired : t.expiration.any config.isExpired = true
  · rw [if_pos hexpired]
    exact congrArg Except.ok (if_pos hexpired)
  · rw [if_neg hexpired]
    exact congrArg Except.ok (if_neg hexpired)

theorem prepare_numbered_ne_ok (hw : t.wantsHighPorts = true) (o : Option Term) :
    (prepare ⟨name, config, .standard n⟩ type t.numbered).outcome ≠ .ok o := by
  have hopen : ¬t.numbered.MayOpenPorts := by simp [mayOpenPorts_numbered, hw]
  rw [prepare_of_not_mayOpen hopen]
  exact nofun

theorem kept_numbered (hw : ∀ t ∈ ts, t.wantsHighPorts = false) :
    kept ⟨name, config, .standard n⟩ type (ts.map Term.numbered) =
      (kept ⟨name, config, .standard n⟩ type ts).map Term.numbered := by
  unfold kept
  rw [List.filterMap_map, List.map_filterMap]
  apply List.filterMap_congr
  intro t ht
  rw [Function.comp_apply, prepare_numbered (hw t ht)]
  cases (prepare ⟨name, config, .standard n⟩ type t).outcome with
  | error e => rfl
  | ok o => rfl

theorem renders_numbered (hform : s.config.settings.protocolForm = .number) {rt : RenderedTerm} :
    s.Renders type t.numbered rt ↔ s.Renders type t rt := by
  refine ⟨fun h => ⟨?_, h.name, ?_⟩, fun h => ⟨?_, h.name, ?_⟩⟩
  · exact check_numbered.symm.trans h.check
  · obtain ⟨why, hlines⟩ := h.lines
    exact ⟨why, (rendered_numbered hform).mp hlines⟩
  · exact check_numbered.trans h.check
  · obtain ⟨why, hlines⟩ := h.lines
    exact ⟨why, (rendered_numbered hform).mpr hlines⟩

/-- A pass over terms by number does what it does by name, if no term asks for its ports to be opened, and fails
otherwise. -/
theorem terms_numbered (hform : config.settings.protocolForm = .number) {gs : ObjectGroups}
    {done : List RenderedTerm × ObjectGroups} :
    (terms ⟨name, config, .standard n⟩ type gs (ts.map Term.numbered)).outcome = .ok done ↔
      (terms ⟨name, config, .standard n⟩ type gs ts).outcome = .ok done ∧ ∀ t ∈ ts, t.wantsHighPorts = false := by
  have hiff : (∀ t ∈ ts, t.wantsHighPorts = false) →
      ((terms ⟨name, config, .standard n⟩ type gs (ts.map Term.numbered)).outcome = .ok done ↔
        (terms ⟨name, config, .standard n⟩ type gs ts).outcome = .ok done) := by
    intro hw
    rw [← Prod.eta done, terms_eq_ok_iff, terms_eq_ok_iff, kept_numbered hw, List.forall₂_map_left_iff,
      List.foldl_map, List.forall_mem_map]
    refine and_congr (forall₂_congr fun t ht => ?_) (and_congr ?_ ?_)
    · rw [prepare_numbered (hw t ht)]
      cases (prepare ⟨name, config, .standard n⟩ type t).outcome with
      | error e => simp [Except.map]
      | ok o => simp [Except.map]
    · simp only [renders_numbered (s := ⟨name, config, .standard n⟩) hform]
    -- Groups are collected from addresses and ports.
    · exact Iff.rfl
  refine ⟨fun h => ?_, fun h => (hiff h.2).mpr h.1⟩
  have hw : ∀ t ∈ ts, t.wantsHighPorts = false := by
    intro t ht
    obtain ⟨hprepared, -⟩ := terms_eq_ok_iff.mp h
    obtain ⟨o, ho⟩ := hprepared t.numbered (List.mem_map_of_mem ht)
    apply Bool.eq_false_iff.mpr; intro hw
    exact prepare_numbered_ne_ok hw o ho
  exact ⟨(hiff hw).mp h, hw⟩

/-- A term that fails by number and not by name asks for its ports to be opened. -/
theorem fails_numbered (hform : config.settings.protocolForm = .number) {e : CompileError}
    (hnumber : Fails ⟨name, config, .standard n⟩ type t.numbered e)
    (hname : ∀ e, ¬Fails ⟨name, config, .standard n⟩ type t e) :
    t.wantsHighPorts = true ∧
      e = .policy (.established ((Services.standard n).truncateName t.name) (t.numbered.stateless type.family)) := by
  by_cases hw : t.wantsHighPorts = true
  · have hopen : ¬t.numbered.MayOpenPorts := by simp [mayOpenPorts_numbered, hw]
    have hprep := @prepare_of_not_mayOpen config n t.numbered hopen name type
    refine ⟨hw, ?_⟩
    rcases hnumber with h | ⟨t', h, -⟩
    · rw [hprep] at h
      cases h
      rfl
    · rw [hprep] at h
      cases h
  · have hsame := @prepare_numbered type t config n name (Bool.eq_false_iff.mpr hw)
    rcases hnumber with h | ⟨t', h, hfails⟩
    · rw [hsame, map_eq_error_iff] at h
      exact absurd (.inl h) (hname e)
    · rw [hsame, map_eq_ok_iff] at h
      obtain ⟨o, ho, heq⟩ := h
      obtain ⟨kept, rfl, rfl⟩ := Option.map_eq_some_iff.mp heq
      rcases hfails with hfails | hfails
      · rw [check_numbered] at hfails
        exact absurd (.inr ⟨kept, ho, .inl hfails⟩) (hname e)
      · cases hr : rendered ⟨name, config, .standard n⟩ type kept with
        | error e' => exact absurd (.inr ⟨kept, ho, .inr hr⟩) (hname e')
        | ok r =>
          rw [(rendered_numbered (s := ⟨name, config, .standard n⟩) hform).mpr hr] at hfails
          cases hfails

end Scope

/-! ## Filters and policies -/

def Filter.numbered (f : Filter) : Filter := { f with terms := f.terms.map Term.numbered }

def Policy.numbered (p : Policy) : Policy := { filters := p.filters.map Filter.numbered }

section
variable {config : Config} {n : Nat}

theorem Policy.filtersFor_numbered {p : Policy} {platform : String} :
    p.numbered.filtersFor platform = (p.filtersFor platform).map Filter.numbered := by
  unfold filtersFor numbered
  rw [List.filter_map]
  rfl

theorem Header.passes_ne_nil {h : Header} {passes : List Pass} (hpasses : h.passes config = .ok passes) :
    passes ≠ [] := by
  obtain ⟨name, selection, rfl, -⟩ := exists_selection hpasses
  cases selection with
  | single type => exact List.cons_ne_nil _ _
  | mixed => exact List.cons_ne_nil _ _

variable (hform : config.settings.protocolForm = .number)
include hform

theorem Pass.run_numbered {f : Filter} {pass : Pass} {rf : RenderedFilter} :
    pass.run config (.standard n) f.numbered = .ok rf ↔
      pass.run config (.standard n) f = .ok rf ∧ ∀ t ∈ f.terms, t.wantsHighPorts = false := by
  have hterms := @Scope.terms_numbered pass.type config n pass.name f.terms hform { filter := pass.name }
    (rf.terms, rf.groups)
  rw [Pass.run_eq_ok_iff, Pass.run_eq_ok_iff]
  refine ⟨fun h => ?_, fun h => ?_⟩
  · obtain ⟨hcheck, hheader, hname, htype, hok⟩ := h
    obtain ⟨hok, hw⟩ := hterms.mp hok
    exact ⟨⟨hcheck, hheader, hname, htype, hok⟩, hw⟩
  · obtain ⟨⟨hcheck, hheader, hname, htype, hok⟩, hw⟩ := h
    exact ⟨hcheck, hheader, hname, htype, hterms.mpr ⟨hok, hw⟩⟩

theorem compileFilter_numbered {f : Filter} {rfs : List RenderedFilter} :
    (compileFilter config (.standard n) f.numbered).outcome = .ok rfs ↔
      (compileFilter config (.standard n) f).outcome = .ok rfs ∧ ∀ t ∈ f.terms, t.wantsHighPorts = false := by
  have hheader : f.numbered.header = f.header := rfl
  simp only [outcome_compileFilter, bind_eq_ok_iff, mapM_eq_ok_iff, Pass.run_numbered hform, hheader]
  refine ⟨fun h => ?_, fun h => ?_⟩
  · obtain ⟨passes, hpasses, hrun⟩ := h
    -- Every header that is taken has a pass, which prepares all the terms.
    obtain ⟨pass, hpass⟩ := List.exists_mem_of_ne_nil _ (Header.passes_ne_nil hpasses)
    obtain ⟨rf, -, -, hw⟩ := exists_of_forall₂ hrun pass hpass
    exact ⟨⟨passes, hpasses, hrun.imp fun _ _ h => h.1⟩, hw⟩
  · obtain ⟨⟨passes, hpasses, hrun⟩, hw⟩ := h
    exact ⟨passes, hpasses, hrun.imp fun _ _ h => ⟨h, hw⟩⟩

theorem compileFilters_numbered {fs : List Filter} {rfs : List RenderedFilter} :
    (compileFilters config (.standard n) (fs.map Filter.numbered)).outcome = .ok rfs ↔
      (compileFilters config (.standard n) fs).outcome = .ok rfs ∧
        ∀ f ∈ fs, ∀ t ∈ f.terms, t.wantsHighPorts = false := by
  induction fs generalizing rfs with
  | nil => simp
  | cons f fs ih =>
    simp only [List.map_cons, outcome_compileFilters_cons, bind_eq_ok_iff, compileFilter_numbered hform, ih,
      List.forall_mem_cons]
    refine ⟨fun h => ?_, fun h => ?_⟩
    · obtain ⟨first, ⟨hfirst, hw⟩, rest, ⟨hrest, hws⟩, heq⟩ := h
      exact ⟨⟨first, hfirst, rest, hrest, heq⟩, hw, hws⟩
    · obtain ⟨⟨first, hfirst, rest, hrest, heq⟩, hw, hws⟩ := h
      exact ⟨first, ⟨hfirst, hw⟩, rest, ⟨hrest, hws⟩, heq⟩

theorem compile_numbered {p : Policy} {rfs : List RenderedFilter} :
    (p.numbered.compile config (.standard n)).outcome = .ok rfs ↔
      (p.compile config (.standard n)).outcome = .ok rfs ∧
        ∀ f ∈ p.filtersFor config.platform, ∀ t ∈ f.terms, t.wantsHighPorts = false := by
  unfold Policy.compile
  rw [Policy.filtersFor_numbered]
  exact compileFilters_numbered hform

theorem renderPolicy_numbered {p : Policy} {text : String} :
    renderPolicy config (.standard n) p.numbered = .ok text ↔
      renderPolicy config (.standard n) p = .ok text ∧
        ∀ f ∈ p.filtersFor config.platform, ∀ t ∈ f.terms, t.wantsHighPorts = false := by
  simp only [renderPolicy, map_eq_ok_iff, compile_numbered hform]
  refine ⟨fun h => ?_, fun h => ?_⟩
  · obtain ⟨rfs, ⟨hrfs, hw⟩, htext⟩ := h
    exact ⟨⟨rfs, hrfs, htext⟩, hw⟩
  · obtain ⟨⟨rfs, hrfs, htext⟩, hw⟩ := h
    exact ⟨rfs, ⟨hrfs, hw⟩, htext⟩

theorem exists_wantsHighPorts_of_error {p : Policy} {rfs : List RenderedFilter} {e : CompileError}
    (hok : (p.compile config (.standard n)).outcome = .ok rfs)
    (he : (p.numbered.compile config (.standard n)).outcome = .error e) :
    ∃ f ∈ p.filtersFor config.platform, ∃ t ∈ f.terms, t.wantsHighPorts = true ∧ ∃ family,
      e = .policy (.established ((Services.standard n).truncateName t.name) (t.numbered.stateless family)) := by
  unfold Policy.compile at he
  rw [Policy.filtersFor_numbered] at he
  obtain ⟨_, hnumbered, he⟩ := exists_of_compileFilters_error he
  obtain ⟨f, hf, rfl⟩ := List.mem_map.mp hnumbered
  obtain ⟨passes, hpasses, hrun⟩ := exists_of_compileFilters hok hf
  have hpasses' : f.numbered.header.passes config = .ok passes := hpasses
  rw [outcome_compileFilter, hpasses'] at he
  obtain ⟨pass, hpass, he⟩ := exists_of_mapM_error he
  obtain ⟨rf, -, hrf⟩ := hrun pass hpass
  obtain ⟨hcheck, -, -, -, hterms⟩ := Pass.run_eq_ok_iff.mp hrf
  rcases Pass.run_eq_error_iff.mp he with he | ⟨-, he⟩
  · rw [hcheck] at he
    cases he
  · obtain ⟨_, hnumbered, hfails⟩ := Scope.exists_fails_of_terms he
    obtain ⟨t, ht, rfl⟩ := List.mem_map.mp hnumbered
    obtain ⟨hw, he⟩ := Scope.fails_numbered hform hfails fun e => Scope.not_fails_of_terms hterms ht
    exact ⟨f, hf, t, ht, hw, _, he⟩

/-- By number, a policy comes to the text that it comes to by name, if it renders at all. It does if and only if none of
its terms asks for ports to be opened; such a term is refused. -/
theorem numbered_renders_alike_iff (p : Policy) :
    ((∀ text, renderPolicy config (.standard n) p.numbered = .ok text ↔
        renderPolicy config (.standard n) p = .ok text) ↔
      ((∃ text, renderPolicy config (.standard n) p = .ok text) →
        ∀ f ∈ p.filtersFor config.platform, ∀ t ∈ f.terms, t.wantsHighPorts = false)) ∧
    (∀ text, renderPolicy config (.standard n) p.numbered = .ok text →
      renderPolicy config (.standard n) p = .ok text) ∧
    ∀ text e, renderPolicy config (.standard n) p = .ok text →
      renderPolicy config (.standard n) p.numbered = .error e →
        ∃ f ∈ p.filtersFor config.platform, ∃ t ∈ f.terms, t.wantsHighPorts = true ∧ ∃ family,
          e = .policy (.established ((Services.standard n).truncateName t.name) (t.numbered.stateless family)) := by
  refine ⟨⟨fun hsame htext => ?_, fun hw text => ?_⟩, fun text h => ?_, fun text e h he => ?_⟩
  · obtain ⟨text, htext⟩ := htext
    exact ((renderPolicy_numbered hform).mp ((hsame text).mpr htext)).2
  · rw [renderPolicy_numbered hform]
    exact ⟨fun h => h.1, fun h => ⟨h, hw ⟨text, h⟩⟩⟩
  · exact ((renderPolicy_numbered hform).mp h).1
  · obtain ⟨rfs, hrfs, -⟩ := map_eq_ok_iff.mp h
    exact exists_wantsHighPorts_of_error hform hrfs (map_eq_error_iff.mp he)

end

def domainPolicy (options : List String) : Policy where
  filters := [{
    header := { targets := [{ platform := "cisco", options := ["edge"] }] }
    terms := [{ Scope.domainTerm with protocols := ["tcp", "udp"], options }] }]

def numberForm : Config := ⟨{ protocolForm := .number }, .greatest⟩

def domainText (rules : List String) : String :=
  "\n".intercalate (["no ip access-list extended edge", "ip access-list extended edge", "remark $Id:$",
    " remark Filter type is extended", "", " remark dns"] ++ rules ++ ["", "exit", ""])

theorem domainPolicy_renders_alike :
    numberForm.settings.protocolForm = .number ∧
      (domainPolicy ["tcp-established"]).numbered ≠ domainPolicy ["tcp-established"] ∧
      renderPolicy numberForm (.standard 100) (domainPolicy ["tcp-established"]) =
        .ok (domainText [" permit 6 any eq domain any established", " permit 17 any eq domain any"]) ∧
      renderPolicy numberForm (.standard 100) (domainPolicy ["tcp-established"]).numbered =
        .ok (domainText [" permit 6 any eq domain any established", " permit 17 any eq domain any"]) := by
  have hname : renderPolicy numberForm (.standard 100) (domainPolicy ["tcp-established"]) =
      .ok (domainText [" permit 6 any eq domain any established", " permit 17 any eq domain any"]) := by
    decide +kernel
  have hw : ∀ f ∈ (domainPolicy ["tcp-established"]).filtersFor "cisco", ∀ t ∈ f.terms,
      t.wantsHighPorts = false := by decide +kernel
  obtain ⟨hiff, -⟩ := @numbered_renders_alike_iff numberForm 100 rfl (domainPolicy ["tcp-established"])
  exact ⟨rfl, by decide +kernel, hname, (hiff.mpr (fun _ => hw) _).mpr hname⟩

/-- With `established`, ports are opened by name and refused by number. -/
theorem domainPolicy_refused_by_number :
    (domainPolicy ["established"]).check = .ok () ∧
      renderPolicy numberForm (.standard 100) (domainPolicy ["established"]) =
        .ok (domainText [" permit 6 any eq domain any range 1024 65535 established",
          " permit 17 any eq domain any range 1024 65535"]) ∧
      renderPolicy numberForm (.standard 100) (domainPolicy ["established"]).numbered =
        .error (.policy (.established "dns" ["6", "17"])) := by
  refine ⟨?_, ?_, ?_⟩
  all_goals decide +kernel

end AccessList
