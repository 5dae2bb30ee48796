import AccessList.Proofs.Compile.Numbers
import AccessList.Proofs.Compile.Silence
import AccessList.Proofs.Compile.StandardFields
import AccessList.Proofs.Rule.PortOrder

/-!
# Why a loaded policy does not compile

Loading a policy sees to it that every term has an action or text that is taken as it is, and port ranges that hold a
port. What is left to be refused is in headers and in fields that the filter type does not take. A policy that compiles
prints no range that ends before it starts.
-/

namespace AccessList

/-! ## Terms that are fit for a filter -/

namespace Term

variable {t : Term} {family : Family} {fault : RuleFault}

/-- What can be the matter with ICMP types. -/
theorem fault_of_icmpCodes (h : t.icmpCodes family = .error fault) :
    fault = .icmpProtocols t.protocols ∨ (∃ p ∈ t.protocols, fault = .icmpFamily p family) ∨
      ∃ name ∈ t.icmpTypes, fault = .icmpName family name := by
  unfold icmpCodes at h
  split at h
  · next p hp =>
    split at h
    · cases h
      exact .inl rfl
    split at h
    · cases h
      exact .inr (.inl ⟨p, by simp [hp], rfl⟩)
    obtain ⟨name, hname, h⟩ := exists_of_mapM_error h
    cases hcode : icmpCode? family name with
    | none =>
      rw [hcode] at h
      cases h
      exact .inr (.inr ⟨name, hname, rfl⟩)
    | some code =>
      rw [hcode] at h
      cases h
  · cases h
    exact .inl rfl

theorem icmpChoices_eq_error_iff :
    t.icmpChoices family = .error fault ↔ t.icmpTypes ≠ [] ∧ t.icmpCodes family = .error fault := by
  unfold icmpChoices
  by_cases h : t.icmpTypes = []
  · simp [h]
  · simp [h, map_eq_error_iff]

end Term

namespace Scope

variable {s : Scope} {type : FilterType} {family : Family} {t : Term} {fault : RuleFault} {e : CompileError}

/-- A term would come to rules, were it not for its ICMP types. -/
structure IcmpFault (s : Scope) (family : Family) (t : Term) (fault : RuleFault) : Prop where
  platform : t.excludes s.platform = false
  protocols : ¬(family = .inet ∧ "icmpv6" ∈ t.protocols)
  verbatims : t.verbatims = []
  sides : ¬t.Exhausts family
  declared : t.icmpTypes ≠ []
  codes : t.icmpCodes family = .error fault

theorem IcmpFault.ne_noAction (h : s.IcmpFault family t fault) : fault ≠ .noAction := by
  rcases Term.fault_of_icmpCodes h.codes with rfl | ⟨p, -, rfl⟩ | ⟨name, -, rfl⟩
  · exact nofun
  · exact nofun
  · exact nofun

/-- Neither the name nor the destination ports matter. -/
theorem icmpFault_opened (name : String) (ports : List PortRange) :
    s.IcmpFault family { t with name := name, destinationPorts := ports } fault ↔ s.IcmpFault family t fault := by
  refine ⟨fun h => ?_, fun h => ?_⟩
  · exact ⟨h.platform, h.protocols, h.verbatims, h.sides, h.declared, h.codes⟩
  · exact ⟨h.platform, h.protocols, h.verbatims, h.sides, h.declared, h.codes⟩

/-- The action is asked for after everything that does without one, so only ICMP types are left to fail. -/
theorem extended_eq_error_iff (hfit : t.actions ≠ [] ∨ t.verbatims ≠ []) :
    s.extended family t = .error e ↔ ∃ fault, e = .badTerm s.filter t.name fault ∧ s.IcmpFault family t fault := by
  have hno {r : Rendering ExtendedRule} (h : ∀ fault, ¬s.IcmpFault family t fault) :
      (Except.ok r : Except CompileError (Rendering ExtendedRule)) = .error e ↔
        ∃ fault, e = .badTerm s.filter t.name fault ∧ s.IcmpFault family t fault := by
    refine iff_of_false (by simp) ?_
    rintro ⟨fault, -, hfault⟩
    exact h fault hfault
  generalize houtcome : s.extended family t = outcome
  cases extended_eq_iff.mp houtcome with
  | otherPlatform hx => exact hno fun _ h => absurd (h.platform.symm.trans hx) (by decide)
  | icmp6 _ h6 => exact hno fun _ h => h.protocols h6
  | verbatim _ _ hv => exact hno fun _ h => hv h.verbatims
  | noAction _ _ hv ha => exact absurd hv (hfit.resolve_left (not_not.mpr (List.head?_eq_none_iff.mp ha)))
  | noSources _ _ _ _ hs => exact hno fun _ h => h.sides (Term.exhausts_iff_endpoints.mpr (.inl hs))
  | noDestinations _ _ _ _ _ hd => exact hno fun _ h => h.sides (Term.exhausts_iff_endpoints.mpr (.inr hd))
  | badTypes hx h6 hv _ hs hd hi =>
    obtain ⟨hdeclared, hcodes⟩ := Term.icmpChoices_eq_error_iff.mp hi
    have hleft : ¬t.Exhausts family := by simp [Term.exhausts_iff_endpoints, hs, hd]
    constructor
    · intro h
      cases h
      exact ⟨_, rfl, hx, h6, hv, hleft, hdeclared, hcodes⟩
    · rintro ⟨fault', rfl, h⟩
      rw [Except.error.inj (hcodes.symm.trans h.codes)]
  | rules _ _ _ _ _ _ hi =>
    refine hno fun _ h => ?_
    cases hi.symm.trans (Term.icmpChoices_eq_error_iff.mpr ⟨h.declared, h.codes⟩)

theorem objectGroup_ne_error (hfit : t.actions ≠ [] ∨ t.verbatims ≠ []) : s.objectGroup t ≠ .error e := by
  intro h
  cases objectGroup_eq_iff.mp h with
  | noAction _ hv _ _ ha => exact absurd hv (hfit.resolve_left (not_not.mpr (List.head?_eq_none_iff.mp ha)))

theorem check_or_rendered_eq_error_iff (hfit : t.actions ≠ [] ∨ t.verbatims ≠ []) :
    (s.check type t).outcome = .error e ∨ s.rendered type t = .error e ↔
      (type = .standard ∧ ∃ field, t.forbidden? = some field ∧ e = .standardTerm s.filter t.name field) ∨
      ((type = .extended ∨ type = .inet6) ∧
        ∃ fault, e = .badTerm s.filter t.name fault ∧ s.IcmpFault type.family t fault) := by
  have hcheck : type ≠ .standard → (s.check type t).outcome ≠ .error e := by
    cases type <;> simp [check]
  cases type with
  | standard =>
    obtain ⟨rendering, hok⟩ := s.exists_standard hfit
    have hrendered : s.rendered .standard t ≠ .error e := by simp [rendered, hok, Except.map]
    rw [outcome_check_standard]
    cases t.forbidden? with
    | none => simp [hrendered]
    | some field => simp [hrendered, eq_comm]
  | extended =>
    have hrendered : s.rendered .extended t = .error e ↔ s.extended .inet t = .error e := map_eq_error_iff
    simp [hcheck, hrendered, extended_eq_error_iff hfit, FilterType.family]
  | objectGroup =>
    have hrendered : s.rendered .objectGroup t = .error e ↔ s.objectGroup t = .error e := map_eq_error_iff
    simp [hcheck, hrendered, objectGroup_ne_error hfit]
  | inet6 =>
    have hrendered : s.rendered .inet6 t = .error e ↔ s.extended .inet6 t = .error e := map_eq_error_iff
    simp [hcheck, hrendered, extended_eq_error_iff hfit, FilterType.family]

/-! ## Passes that fail -/

def Fails (s : Scope) (type : FilterType) (t : Term) (e : CompileError) : Prop :=
  (s.prepare type t).outcome = .error e ∨ ∃ t', (s.prepare type t).outcome = .ok (some t') ∧
    ((s.check type t').outcome = .error e ∨ s.rendered type t' = .error e)

theorem render_eq_error_iff : (s.render type t).outcome = .error e ↔ s.rendered type t = .error e := by
  unfold render
  rw [Traced.outcome_bind, Traced.outcome_ofExcept]
  rw [bind_eq_error_iff]
  refine ⟨fun h => ?_, .inl⟩
  rcases h with h | ⟨r, -, h⟩
  · exact h
  · cases h

theorem exists_fails_of_terms {gs : ObjectGroups} {ts : List Term} (h : (s.terms type gs ts).outcome = .error e) :
    ∃ t ∈ ts, s.Fails type t e := by
  induction ts generalizing gs with
  | nil => cases h
  | cons t ts ih =>
    have hlater : ∀ gs, (s.terms type gs ts).outcome = .error e → ∃ t' ∈ t :: ts, s.Fails type t' e := by
      intro gs h
      obtain ⟨t', ht', hfails⟩ := ih h
      exact ⟨t', List.mem_cons_of_mem _ ht', hfails⟩
    rw [outcome_terms_cons] at h
    rcases bind_eq_error_iff.mp h with h | ⟨o, ho, h⟩
    · exact ⟨t, List.mem_cons_self .., .inl h⟩
    cases o with
    | none => exact hlater gs h
    | some t' =>
      rcases bind_eq_error_iff.mp h with h | ⟨_, -, h⟩
      · exact ⟨t, List.mem_cons_self .., .inr ⟨t', ho, .inl h⟩⟩
      rcases bind_eq_error_iff.mp h with h | ⟨lines, -, h⟩
      · exact ⟨t, List.mem_cons_self .., .inr ⟨t', ho, .inr (render_eq_error_iff.mp h)⟩⟩
      rcases bind_eq_error_iff.mp h with h | ⟨rest, -, h⟩
      · exact hlater _ h
      · cases h

theorem not_fails_of_terms {gs gs' : ObjectGroups} {ts : List Term} {rts : List RenderedTerm}
    (h : (s.terms type gs ts).outcome = .ok (rts, gs')) (ht : t ∈ ts) : ¬s.Fails type t e := by
  obtain ⟨hprepared, hrendered, -⟩ := terms_eq_ok_iff.mp h
  obtain ⟨o, ho⟩ := hprepared t ht
  intro hfails
  rcases hfails with hfails | ⟨t', ht', hfails⟩
  · rw [ho] at hfails
    cases hfails
  have hkept : t' ∈ s.kept type ts := List.mem_filterMap.mpr ⟨t, ht, by rw [ht']; rfl⟩
  obtain ⟨rt, -, hrt⟩ := exists_of_forall₂ hrendered t' hkept
  obtain ⟨why, hlines⟩ := hrt.lines
  rcases hfails with hfails | hfails
  · rw [hrt.check] at hfails
    cases hfails
  · rw [hlines] at hfails
    cases hfails

inductive Refuses (s : Scope) (type : FilterType) (t : Term) : CompileError → Prop
  | established (h : ¬t.MayOpenPorts) :
    Refuses s type t (.policy (.established (s.services.truncateName t.name) (t.stateless type.family)))
  | field {field : StandardField} (hopen : t.MayOpenPorts) (hcurrent : t.expiration.any s.config.isExpired = false)
    (htype : type = .standard) (h : t.forbidden? = some field) :
    Refuses s type t (.standardTerm s.filter (s.services.truncateName t.name) field)
  | icmpTypes {fault : RuleFault} (hopen : t.MayOpenPorts)
    (hcurrent : t.expiration.any s.config.isExpired = false) (htype : type = .extended ∨ type = .inet6)
    (h : s.IcmpFault type.family t fault) :
    Refuses s type t (.badTerm s.filter (s.services.truncateName t.name) fault)

theorem Refuses.ne_noAction (h : s.Refuses type t e) (filter term : String) : e ≠ .badTerm filter term .noAction := by
  cases h with
  | established => exact nofun
  | field => exact nofun
  | icmpTypes _ _ _ h =>
    intro heq
    cases heq
    exact h.ne_noAction rfl

variable {config : Config} {n : Nat} {name : String}

theorem fails_iff_refuses (hfit : t.actions ≠ [] ∨ t.verbatims ≠ []) :
    Fails ⟨name, config, .standard n⟩ type t e ↔ Refuses ⟨name, config, .standard n⟩ type t e := by
  unfold Fails
  by_cases hopen : t.MayOpenPorts
  · obtain ⟨ports, hprep, hsame⟩ := @prepare_of_mayOpen config n t hopen name type
    rw [hprep]
    by_cases hexpired : t.expiration.any config.isExpired = true
    · rw [if_pos hexpired]
      refine ⟨fun h => ?_, fun h => ?_⟩
      · rcases h with h | ⟨t', h, -⟩
        · cases h
        · cases h
      · cases h with
        | established h => exact absurd hopen h
        | field _ hcurrent => exact absurd hexpired (Bool.eq_false_iff.mp hcurrent)
        | icmpTypes _ hcurrent => exact absurd hexpired (Bool.eq_false_iff.mp hcurrent)
    · have hcurrent : t.expiration.any config.isExpired = false := Bool.eq_false_iff.mpr hexpired
      let opened : Term := { t with name := (Services.standard n).truncateName t.name, destinationPorts := ports }
      have hfields : opened.forbidden? = t.forbidden? := Term.forbidden?_opened hopen hsame _
      have hwhy := @check_or_rendered_eq_error_iff ⟨name, config, .standard n⟩ type opened e hfit
      rw [if_neg hexpired]
      refine ⟨fun h => ?_, fun h => ?_⟩
      · rcases h with h | ⟨t', h, hfails⟩
        · cases h
        cases h
        rcases hwhy.mp hfails with ⟨htype, field, hfield, rfl⟩ | ⟨htype, fault, rfl, hfault⟩
        · exact .field hopen hcurrent htype (hfields.symm.trans hfield)
        · exact .icmpTypes hopen hcurrent htype ((icmpFault_opened _ ports).mp hfault)
      · refine .inr ⟨opened, rfl, hwhy.mpr ?_⟩
        cases h with
        | established h => exact absurd hopen h
        | field _ _ htype hfield => exact .inl ⟨htype, _, hfields.trans hfield, rfl⟩
        | icmpTypes _ _ htype h => exact .inr ⟨htype, _, rfl, (icmpFault_opened _ ports).mpr h⟩
  · rw [prepare_of_not_mayOpen hopen]
    refine ⟨fun h => ?_, fun h => ?_⟩
    · rcases h with h | ⟨t', h, -⟩
      · cases h
        exact .established hopen
      · cases h
    · cases h with
      | established => exact .inl rfl
      | field h => exact absurd h hopen
      | icmpTypes h => exact absurd h hopen

end Scope

/-! ## Headers and names -/

theorem FilterSelection.parse_eq_error_iff {s : String} {e : UnknownFilterType} :
    parse s = .error e ↔ e = ⟨s⟩ ∧ ∀ selection : FilterSelection, s ≠ selection.word := by
  cases hs : parse s with
  | ok selection =>
    refine ⟨nofun, fun h => ?_⟩
    exact absurd (parse_eq_ok_iff.mp hs) (h.2 selection)
  | error e' =>
    have hword : ∀ selection : FilterSelection, s ≠ selection.word := by
      intro selection h
      rw [parse_eq_ok_iff.mpr h] at hs
      cases hs
    have he : e' = ⟨s⟩ := by
      unfold parse at hs
      cases hof : ofText? s with
      | none =>
        rw [hof] at hs
        cases hs
        rfl
      | some selection =>
        rw [hof] at hs
        cases hs
    rw [he, Except.error.injEq]
    exact ⟨fun h => ⟨h.symm, hword⟩, fun h => h.1.symm⟩

theorem FilterType.checkName_eq_error_iff {type : FilterType} {name : String} {e : CompileError} :
    type.checkName name = .error e ↔ e = .reservedNumber name type ∧ Text.isNumeric name = true ∧
      (type = .extended ∧ StandardNumber (Text.value name) ∨ type = .standard ∧ ¬StandardNumber (Text.value name)) := by
  unfold checkName
  by_cases hn : Text.isNumeric name = true
  · rw [if_pos hn, Text.digits?_of_isNumeric hn]
    simp only [isStandardNumber_iff, hn, true_and]
    by_cases hreserved : type = .extended ∧ StandardNumber (Text.value name) ∨
        type = .standard ∧ ¬StandardNumber (Text.value name)
    · simp [hreserved, eq_comm]
    · simp [hreserved]
  · simp [hn]

section
variable {config : Config} {services : Services} {e : CompileError}

theorem Header.passes_eq_error_iff {h : Header} :
    h.passes config = .error e ↔
      (h.optionsFor config.platform = [] ∧ e = .unnamedFilter config.platform) ∨
        ∃ name word rest, h.optionsFor config.platform = name :: word :: rest ∧
          (∀ selection : FilterSelection, word ≠ selection.word) ∧
          e = .unsupportedType name word config.platform := by
  unfold Header.passes filterName? filterSelection
  cases hoptions : h.optionsFor config.platform with
  | nil => simp [eq_comm]
  | cons name rest =>
    cases rest with
    | nil => simp [Except.map]
    | cons word rest =>
      simp only [List.head?_cons, List.getElem?_cons_succ, List.getElem?_cons_zero, map_eq_error_iff,
        mapError_eq_error_iff, FilterSelection.parse_eq_error_iff]
      simp [eq_comm]

theorem Pass.run_eq_error_iff {f : Filter} {pass : Pass} :
    pass.run config services f = .error e ↔
      pass.type.checkName pass.name = .error e ∨ pass.type.checkName pass.name = .ok () ∧
        ((pass.scope config services).terms pass.type { filter := pass.name } f.terms).outcome = .error e := by
  unfold Pass.run
  rw [bind_eq_error_iff, outcome_compilePass, map_eq_error_iff]
  exact or_congr_right ⟨fun ⟨_, h⟩ => h, fun h => ⟨(), h⟩⟩

theorem exists_of_compileFilters_error {fs : List Filter}
    (h : (compileFilters config services fs).outcome = .error e) :
    ∃ f ∈ fs, (compileFilter config services f).outcome = .error e := by
  induction fs with
  | nil => cases h
  | cons f fs ih =>
    rw [outcome_compileFilters_cons] at h
    rcases bind_eq_error_iff.mp h with h | ⟨rfs, -, h⟩
    · exact ⟨f, List.mem_cons_self .., h⟩
    rcases bind_eq_error_iff.mp h with h | ⟨rest, -, h⟩
    · obtain ⟨f', hf', h⟩ := ih h
      exact ⟨f', List.mem_cons_of_mem _ hf', h⟩
    · cases h

end

/-! ## Policies -/

inductive Filter.Refused (config : Config) (n : Nat) (f : Filter) : CompileError → Prop
  | unnamed (h : f.header.optionsFor config.platform = []) : Refused config n f (.unnamedFilter config.platform)
  | unknownType {name word : String} {rest : List String}
    (h : f.header.optionsFor config.platform = name :: word :: rest)
    (hword : ∀ selection : FilterSelection, word ≠ selection.word) :
    Refused config n f (.unsupportedType name word config.platform)
  | reservedNumber {passes : List Pass} {pass : Pass} (hpasses : f.header.passes config = .ok passes)
    (hpass : pass ∈ passes) (hnumeric : Text.isNumeric pass.name = true)
    (h : pass.type = .extended ∧ StandardNumber (Text.value pass.name) ∨
      pass.type = .standard ∧ ¬StandardNumber (Text.value pass.name)) :
    Refused config n f (.reservedNumber pass.name pass.type)
  | term {passes : List Pass} {pass : Pass} {t : Term} {e : CompileError}
    (hpasses : f.header.passes config = .ok passes) (hpass : pass ∈ passes) (ht : t ∈ f.terms)
    (h : (pass.scope config (.standard n)).Refuses pass.type t e) : Refused config n f e

section
variable {config : Config} {n : Nat} {f : Filter} {e : CompileError}

theorem Filter.Refused.ne_noAction (h : f.Refused config n e) (filter term : String) :
    e ≠ .badTerm filter term .noAction := by
  cases h with
  | unnamed => exact nofun
  | unknownType => exact nofun
  | reservedNumber => exact nofun
  | term _ _ _ h => exact h.ne_noAction filter term

theorem refused_of_compileFilter (hfit : ∀ t ∈ f.terms, t.actions ≠ [] ∨ t.verbatims ≠ [])
    (h : (compileFilter config (.standard n) f).outcome = .error e) : f.Refused config n e := by
  rw [outcome_compileFilter] at h
  rcases bind_eq_error_iff.mp h with h | ⟨passes, hpasses, h⟩
  · rcases Header.passes_eq_error_iff.mp h with ⟨hoptions, rfl⟩ | ⟨name, word, rest, hoptions, hword, rfl⟩
    · exact .unnamed hoptions
    · exact .unknownType hoptions hword
  · obtain ⟨pass, hpass, h⟩ := exists_of_mapM_error h
    rcases Pass.run_eq_error_iff.mp h with h | ⟨-, h⟩
    · obtain ⟨rfl, hnumeric, hreserved⟩ := FilterType.checkName_eq_error_iff.mp h
      exact .reservedNumber hpasses hpass hnumeric hreserved
    · obtain ⟨t, ht, hfails⟩ := Scope.exists_fails_of_terms h
      exact .term hpasses hpass ht ((Scope.fails_iff_refuses (hfit t ht)).mp hfails)

theorem not_refused_of_passes {passes : List Pass} (hfit : ∀ t ∈ f.terms, t.actions ≠ [] ∨ t.verbatims ≠ [])
    (hpasses : f.header.passes config = .ok passes)
    (hrun : ∀ pass ∈ passes, ∃ rf, pass.run config (.standard n) f = .ok rf) : ¬f.Refused config n e := by
  have herror : ∀ e, f.header.passes config ≠ .error e := by simp [hpasses]
  intro h
  cases h with
  | unnamed h => exact herror _ (Header.passes_eq_error_iff.mpr (.inl ⟨h, rfl⟩))
  | unknownType h hword => exact herror _ (Header.passes_eq_error_iff.mpr (.inr ⟨_, _, _, h, hword, rfl⟩))
  | reservedNumber hpasses' hpass hnumeric h =>
    rw [hpasses] at hpasses'
    cases hpasses'
    obtain ⟨rf, hrf⟩ := hrun _ hpass
    rw [Pass.run_eq_error_iff.mpr (.inl (FilterType.checkName_eq_error_iff.mpr ⟨rfl, hnumeric, h⟩))] at hrf
    cases hrf
  | term hpasses' hpass ht h =>
    rw [hpasses] at hpasses'
    cases hpasses'
    obtain ⟨rf, hrf⟩ := hrun _ hpass
    obtain ⟨-, -, -, -, hterms⟩ := Pass.run_eq_ok_iff.mp hrf
    exact Scope.not_fails_of_terms hterms ht ((Scope.fails_iff_refuses (hfit _ ht)).mpr h)

/-- A policy that loads compiles unless a header, a number, an option or a field that the filter type does not take is
in the way. No term is refused for want of an action, and no range ends before it starts in what is printed. -/
theorem loaded_policy_compiles_iff {p : Policy} (h : p.check = .ok ()) :
    ((∃ rfs, (p.compile config (.standard n)).outcome = .ok rfs) ↔
      ∀ f ∈ p.filtersFor config.platform, ∀ e, ¬f.Refused config n e) ∧
    (∀ e, (p.compile config (.standard n)).outcome = .error e →
      (∃ f ∈ p.filtersFor config.platform, f.Refused config n e) ∧
        ∀ filter term, e ≠ .badTerm filter term .noAction) ∧
    ∀ rfs, (p.compile config (.standard n)).outcome = .ok rfs → ∀ rf ∈ rfs,
      (∀ r, .ports r ∈ rf.groups.definitions → r.low ≤ r.high) ∧
        ∃ f ∈ p.filtersFor config.platform, ∃ (s : Scope) (ts : List Term),
          s = ⟨rf.name, config, .standard n⟩ ∧ ts = s.kept rf.type f.terms ∧
            List.Forall₂ (fun t rt => s.PrintsOrdered rf.type t rt.lines) ts rf.terms := by
  have hloaded : ∀ f ∈ p.filtersFor config.platform, ∀ t ∈ f.terms, t.check = .ok () := fun f hf =>
    forM_eq_ok_iff.mp (forM_eq_ok_iff.mp h f (List.mem_of_mem_filter hf))
  have hfit : ∀ f ∈ p.filtersFor config.platform, ∀ t ∈ f.terms, t.actions ≠ [] ∨ t.verbatims ≠ [] :=
    fun f hf t ht => Term.check_eq_ok (hloaded f hf t ht)
  have hrefused : ∀ e, (p.compile config (.standard n)).outcome = .error e →
      ∃ f ∈ p.filtersFor config.platform, f.Refused config n e := by
    intro e he
    obtain ⟨f, hf, he⟩ := exists_of_compileFilters_error he
    exact ⟨f, hf, refused_of_compileFilter (hfit f hf) he⟩
  refine ⟨⟨fun hok f hf e => ?_, fun hnone => ?_⟩, fun e he => ?_, fun rfs hrfs rf hrf => ?_⟩
  · obtain ⟨rfs, hrfs⟩ := hok
    obtain ⟨passes, hpasses, hrun⟩ := exists_of_compileFilters hrfs hf
    refine not_refused_of_passes (hfit f hf) hpasses fun pass hpass => ?_
    obtain ⟨rf, -, hrf⟩ := hrun pass hpass
    exact ⟨rf, hrf⟩
  · cases hcompile : (p.compile config (.standard n)).outcome with
    | ok rfs => exact ⟨rfs, rfl⟩
    | error e =>
      obtain ⟨f, hf, he⟩ := hrefused e hcompile
      exact absurd he (hnone f hf e)
  · obtain ⟨f, hf, hrefuses⟩ := hrefused e he
    exact ⟨⟨f, hf, hrefuses⟩, hrefuses.ne_noAction⟩
  · obtain ⟨f, hf, -, hterms⟩ := mem_compile hrfs hrf
    have hports : ∀ t ∈ f.terms, t.PortsOrdered := fun t ht => Term.portsOrdered_of_check (hloaded f hf t ht)
    obtain ⟨hprinted, hgroups⟩ := Scope.terms_ordered hports hterms
    exact ⟨hgroups, f, hf, _, _, rfl, rfl, hprinted⟩

end

def foreignNote : Term where
  name := "note"
  verbatims := [⟨"juniper", "then accept"⟩]

def webAnswers : Term where
  name := "web"
  actions := [.accept]
  protocols := ["tcp"]
  sourcePorts := [⟨⟨8080, by decide⟩, ⟨8081, by decide⟩⟩]
  options := ["established"]

def strayTypes : Term where
  name := "ping"
  actions := [.accept]
  protocols := ["icmp"]
  icmpTypes := ["echo-request", "packet-too-big"]

def edgePolicy (ts : List Term) : Policy where
  filters := [{ header := { targets := [{ platform := "cisco", options := ["edge", "object-group"] }] }, terms := ts },
    { header := { targets := [{ platform := "cisco", options := ["edge6", "mixed"] }] }, terms := ts }]

theorem edgePolicy_compiles :
    (edgePolicy [foreignNote, webAnswers]).check = .ok () ∧
      (∃ rfs, ((edgePolicy [foreignNote, webAnswers]).compile ⟨{}, .greatest⟩ (.standard 100)).outcome = .ok rfs ∧
        (rfs.map fun rf => (rf.type, rf.terms.map (·.lines.length))) =
          [(.objectGroup, [2, 3]), (.extended, [2, 4]), (.inet6, [2, 4])] ∧
        ∀ rf ∈ rfs, ∀ r, .ports r ∈ rf.groups.definitions → r.low ≤ r.high) ∧
      (∀ f ∈ (edgePolicy [foreignNote, webAnswers]).filtersFor "cisco", ∀ e, ¬f.Refused ⟨{}, .greatest⟩ 100 e) ∧
      (edgePolicy [foreignNote, strayTypes]).check = .ok () ∧
      ∃ f ∈ (edgePolicy [foreignNote, strayTypes]).filtersFor "cisco",
        f.Refused ⟨{}, .greatest⟩ 100 (.badTerm "edge6" "ping" (.icmpName .inet "packet-too-big")) := by
  have hloads : (edgePolicy [foreignNote, webAnswers]).check = .ok () := by decide +kernel
  have hstray : (edgePolicy [foreignNote, strayTypes]).check = .ok () := by decide +kernel
  have hshape : ((edgePolicy [foreignNote, webAnswers]).compile ⟨{}, .greatest⟩ (.standard 100)).outcome.map
      (·.map fun rf => (rf.type, rf.terms.map (·.lines.length))) =
        .ok [(.objectGroup, [2, 3]), (.extended, [2, 4]), (.inet6, [2, 4])] := by decide +kernel
  have hfails : ((edgePolicy [foreignNote, strayTypes]).compile ⟨{}, .greatest⟩ (.standard 100)).outcome =
      .error (.badTerm "edge6" "ping" (.icmpName .inet "packet-too-big")) := by decide +kernel
  obtain ⟨rfs, hrfs, hlines⟩ := map_eq_ok_iff.mp hshape
  obtain ⟨hiff, -, hordered⟩ := @loaded_policy_compiles_iff ⟨{}, .greatest⟩ 100 _ hloads
  obtain ⟨-, hrefused, -⟩ := @loaded_policy_compiles_iff ⟨{}, .greatest⟩ 100 _ hstray
  refine ⟨hloads, ⟨rfs, hrfs, hlines, fun rf hrf => (hordered rfs hrfs rf hrf).1⟩, ?_, hstray, ?_⟩
  · exact hiff.mp ⟨rfs, hrfs⟩
  · exact (hrefused _ hfails).1

end AccessList
