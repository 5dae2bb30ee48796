import AccessList.Compile
import AccessList.Proofs.Traversal

/-!
# Runs of the compiler

A pass that succeeds has prepared every term, has collected the groups of those that are kept and has rendered
each of them. A header asks for passes, and compiling a policy is running the passes of its filters, one after another.
-/

namespace AccessList

/-- What loading sees to, term by term. -/
theorem Term.check_eq_ok_iff {t : Term} : t.check = .ok () ↔
    t.name.isEmpty = false ∧ (t.actions ≠ [] ∨ t.verbatims ≠ []) ∧
      ∀ r ∈ t.sourcePorts ++ t.destinationPorts, r.low ≤ r.high := by
  have hranges : t.badRange? = none ↔ ∀ r ∈ t.sourcePorts ++ t.destinationPorts, r.low ≤ r.high := by
    simp only [badRange?, List.find?_eq_none, decide_eq_true_eq, Fin.not_lt]
  unfold check
  by_cases hname : t.name.isEmpty = true
  · simp [hname]
  rw [if_neg hname]
  by_cases hempty : (t.actions.isEmpty && t.verbatims.isEmpty) = true
  · rw [if_pos hempty]
    simp only [Bool.and_eq_true, List.isEmpty_iff] at hempty
    simp [hempty]
  · have hfit : t.actions ≠ [] ∨ t.verbatims ≠ [] := not_and_or.mp (by simpa using hempty)
    rw [if_neg hempty, ← hranges]
    cases t.badRange? with
    | some r => exact iff_of_false (by simp) (by simp)
    | none => exact iff_of_true rfl ⟨Bool.eq_false_iff.mpr hname, hfit, rfl⟩

namespace Scope

def kept (s : Scope) (type : FilterType) (ts : List Term) : List Term :=
  ts.filterMap fun t => (s.prepare type t).outcome.toOption.join

def collect (s : Scope) (type : FilterType) (gs : ObjectGroups) (t : Term) : ObjectGroups :=
  if type = .objectGroup then gs.add t s.platform else gs

structure Renders (s : Scope) (type : FilterType) (t : Term) (r : RenderedTerm) : Prop where
  check : (s.check type t).outcome = .ok ()
  name : r.name = t.name
  lines : ∃ why, s.rendered type t = .ok (why, r.lines)

theorem render_eq_ok_iff {s : Scope} {type : FilterType} {t : Term} {lines : List String} :
    (s.render type t).outcome = .ok lines ↔ ∃ why, s.rendered type t = .ok (why, lines) := by
  unfold render
  rw [Traced.outcome_bind, bind_eq_ok_iff]
  simp only [Traced.outcome_ofExcept, Prod.exists]
  constructor
  · rintro ⟨why, lines', h, heq⟩
    cases heq
    exact ⟨why, h⟩
  · rintro ⟨why, h⟩
    exact ⟨why, lines, h, rfl⟩

section
variable {s : Scope} {type : FilterType}

theorem kept_cons {t : Term} {ts : List Term} {o : Option Term} (h : (s.prepare type t).outcome = .ok o) :
    s.kept type (t :: ts) = o.toList ++ s.kept type ts := by
  unfold kept
  rw [List.filterMap_cons, h]
  cases o <;> rfl

theorem outcome_prepare (t : Term) :
    (s.prepare type t).outcome =
      ((s.services.prepare { t with name := s.services.truncateName t.name } type.family).mapError .policy).map
        (·.filter fun t' => !t'.expiration.any s.config.isExpired) := by
  unfold prepare
  simp only [Traced.outcome_bind, Traced.outcome_tell, Traced.outcome_ofExcept]
  cases s.services.prepare { t with name := s.services.truncateName t.name } type.family with
  | error e => rfl
  | ok o =>
    cases o with
    | none => rfl
    | some t' =>
      by_cases hexpired : t'.expiration.any s.config.isExpired = true
      · simp [bind, Except.bind, Except.mapError, Except.map, Option.filter, hexpired]
      · simp [bind, Except.bind, Except.mapError, Except.map, Option.filter, hexpired]

theorem outcome_terms_cons (gs : ObjectGroups) (t : Term) (ts : List Term) :
    (s.terms type gs (t :: ts)).outcome = (s.prepare type t).outcome >>= fun o =>
      match o with
      | none => (s.terms type gs ts).outcome
      | some t' => (s.check type t').outcome >>= fun _ => (s.render type t').outcome >>= fun lines =>
          (s.terms type (s.collect type gs t') ts).outcome >>= fun rest =>
            .ok (⟨t'.name, lines⟩ :: rest.1, rest.2) := by
  rw [terms, Traced.outcome_bind]
  congr 1
  funext o
  cases o with
  | none => rfl
  | some t' => simp only [Traced.outcome_bind, Traced.outcome_pure, collect]

theorem outcome_terms_append (gs : ObjectGroups) (front back : List Term) :
    (s.terms type gs (front ++ back)).outcome = (s.terms type gs front).outcome >>= fun done =>
      (s.terms type done.2 back).outcome >>= fun rest => .ok (done.1 ++ rest.1, rest.2) := by
  induction front generalizing gs with
  | nil =>
    rw [List.nil_append]
    exact (bind_pure _).symm
  | cons t front ih =>
    rw [List.cons_append, outcome_terms_cons, outcome_terms_cons, bind_assoc]
    congr 1
    funext o
    cases o with
    | none => exact ih gs
    | some t' =>
      simp only [ih, bind_assoc]
      rfl

/-- What a pass does when it succeeds, and when it does. -/
theorem terms_eq_ok_iff {gs gs' : ObjectGroups} {ts : List Term} {rendered : List RenderedTerm} :
    (s.terms type gs ts).outcome = .ok (rendered, gs') ↔
      (∀ t ∈ ts, ∃ o, (s.prepare type t).outcome = .ok o) ∧
        List.Forall₂ (s.Renders type) (s.kept type ts) rendered ∧
        gs' = (s.kept type ts).foldl (s.collect type) gs := by
  induction ts generalizing gs gs' rendered with
  | nil =>
    simp [terms, kept, eq_comm]
  | cons t ts ih =>
    unfold terms
    rw [Traced.outcome_bind, bind_eq_ok_iff]
    constructor
    · rintro ⟨o, ho, h⟩
      rw [kept_cons ho]
      cases o with
      | none =>
        obtain ⟨hp, hr, hgs⟩ := ih.mp h
        exact ⟨List.forall_mem_cons.mpr ⟨⟨_, ho⟩, hp⟩, hr, hgs⟩
      | some t' =>
        simp only [Traced.outcome_bind, bind_eq_ok_iff, Traced.outcome_pure, render_eq_ok_iff] at h
        obtain ⟨⟨⟩, hcheck, lines, ⟨why, hlines⟩, ⟨rest, gs''⟩, hrest, heq⟩ := h
        cases heq
        obtain ⟨hp, hr, hgs⟩ := ih.mp hrest
        exact ⟨List.forall_mem_cons.mpr ⟨⟨_, ho⟩, hp⟩, .cons ⟨hcheck, rfl, why, hlines⟩ hr, hgs⟩
    · rintro ⟨hp, hr, hgs⟩
      obtain ⟨⟨o, ho⟩, hp⟩ := List.forall_mem_cons.mp hp
      rw [kept_cons ho] at hr hgs
      refine ⟨o, ho, ?_⟩
      cases o with
      | none => exact ih.mpr ⟨hp, hr, hgs⟩
      | some t' =>
        simp only [Traced.outcome_bind, bind_eq_ok_iff, Traced.outcome_pure, render_eq_ok_iff]
        rcases hr with _ | ⟨⟨hcheck, hname, hlines⟩, hr⟩
        refine ⟨(), hcheck, _, hlines, (_, gs'), ih.mpr ⟨hp, hr, hgs⟩, ?_⟩
        rw [← hname]

end

end Scope

/-! ## Passes -/

namespace FilterSelection

def word : FilterSelection → String
  | single type => type.name
  | mixed => "mixed"

theorem parse_eq_ok_iff {s : String} {selection : FilterSelection} : parse s = .ok selection ↔ s = selection.word := by
  constructor
  · intro h
    unfold parse ofText? FilterType.ofName? at h
    by_cases hs : s = "mixed"
    · rw [if_pos hs] at h
      cases h
      exact hs
    · rw [if_neg hs] at h
      cases htype : FilterType.all.find? (·.name == s) with
      | none => simp [htype] at h
      | some type =>
        have hname : type.name = s := by simpa using List.find?_some htype
        rw [htype] at h
        cases h
        exact hname.symm
  · intro h
    subst h
    cases selection with
    | single type => cases type <;> decide +kernel
    | mixed => decide +kernel

end FilterSelection

structure Pass where
  type : FilterType
  name : String
deriving DecidableEq

def Header.passes (config : Config) (h : Header) : Except CompileError (List Pass) :=
  match h.filterName? config.platform with
  | none => .error (.unnamedFilter config.platform)
  | some name =>
    (filterSelection config h name).map fun selection =>
      selection.passes.map fun type => ⟨type, selection.passName name type⟩

section
variable {config : Config} {services : Services}

theorem Header.passes_of_options {h : Header} {name word : String} {rest : List String} {selection : FilterSelection}
    (hoptions : h.optionsFor config.platform = name :: word :: rest)
    (hword : FilterSelection.parse word = .ok selection) :
    h.passes config = .ok (selection.passes.map fun type => ⟨type, selection.passName name type⟩) := by
  have hname : h.filterName? config.platform = some name := by
    rw [filterName?, hoptions]
    rfl
  have hselection : filterSelection config h name = .ok selection := by
    simp only [filterSelection, hoptions, List.getElem?_cons_succ, List.getElem?_cons_zero, hword]
    rfl
  simp only [passes, hname, hselection]
  rfl

/-- Passes are for the type that the second option names, or for an extended filter without one. -/
theorem Header.exists_selection {h : Header} {passes : List Pass} (hpasses : h.passes config = .ok passes) :
    ∃ (name : String) (selection : FilterSelection),
      passes = selection.passes.map (fun type => ⟨type, selection.passName name type⟩) ∧
      (h.optionsFor config.platform = [name] ∧ selection = .single .extended ∨
        ∃ rest, h.optionsFor config.platform = name :: selection.word :: rest) := by
  unfold Header.passes filterName? filterSelection at hpasses
  cases hoptions : h.optionsFor config.platform with
  | nil =>
    rw [hoptions] at hpasses
    cases hpasses
  | cons name rest =>
    cases rest with
    | nil =>
      rw [hoptions] at hpasses
      cases hpasses
      exact ⟨name, .single .extended, rfl, .inl ⟨rfl, rfl⟩⟩
    | cons word rest =>
      simp only [hoptions, List.head?_cons, List.getElem?_cons_succ, List.getElem?_cons_zero] at hpasses
      cases hword : FilterSelection.parse word with
      | error e =>
        rw [hword] at hpasses
        cases hpasses
      | ok selection =>
        rw [hword] at hpasses
        cases hpasses
        rw [FilterSelection.parse_eq_ok_iff.mp hword]
        exact ⟨name, selection, rfl, .inr ⟨rest, rfl⟩⟩

theorem Header.hasPlatform_of_options {h : Header} {platform : String} (hoptions : h.optionsFor platform ≠ []) :
    h.hasPlatform platform = true := by
  unfold optionsFor at hoptions
  cases htarget : h.targets.find? (·.platform == platform) with
  | none => simp [htarget] at hoptions
  | some target =>
    have hplatform : target.platform = platform := by simpa using List.find?_some htarget
    have hmem : platform ∈ h.platforms := hplatform ▸ List.mem_map_of_mem (List.mem_of_find?_eq_some htarget)
    exact List.contains_iff_mem.mpr hmem

theorem Header.hasPlatform_of_passes {h : Header} {passes : List Pass} (hpasses : h.passes config = .ok passes) :
    h.hasPlatform config.platform = true := by
  apply hasPlatform_of_options
  intro hoptions
  have hname : h.filterName? config.platform = none := by
    rw [filterName?, hoptions]
    rfl
  simp [Header.passes, hname] at hpasses

theorem outcome_compilePass (header : Header) (ts : List Term) (type : FilterType) (name : String) :
    (compilePass config services header ts type name).outcome =
      (Scope.terms ⟨name, config, services⟩ type { filter := name } ts).outcome.map fun done =>
        { header, name, type, terms := done.1, groups := done.2 } := by
  unfold compilePass
  rw [Traced.outcome_bind]
  cases (Scope.terms ⟨name, config, services⟩ type { filter := name } ts).outcome with
  | error e => rfl
  | ok done => rfl

theorem compilePass_eq_ok_iff {header : Header} {ts : List Term} {type : FilterType} {name : String}
    {rf : RenderedFilter} :
    (compilePass config services header ts type name).outcome = .ok rf ↔
      rf.header = header ∧ rf.name = name ∧ rf.type = type ∧
        (Scope.terms ⟨name, config, services⟩ type { filter := name } ts).outcome = .ok (rf.terms, rf.groups) := by
  rw [outcome_compilePass, map_eq_ok_iff]
  constructor
  · intro h
    obtain ⟨done, h, heq⟩ := h
    cases heq
    exact ⟨rfl, rfl, rfl, h⟩
  · intro h
    obtain ⟨rfl, rfl, rfl, h⟩ := h
    exact ⟨(rf.terms, rf.groups), h, rfl⟩

namespace Pass

def scope (config : Config) (services : Services) (pass : Pass) : Scope := ⟨pass.name, config, services⟩

def run (config : Config) (services : Services) (f : Filter) (pass : Pass) : Except CompileError RenderedFilter :=
  pass.type.checkName pass.name >>= fun _ =>
    (compilePass config services f.header f.terms pass.type pass.name).outcome

theorem run_eq_ok_iff {f : Filter} {pass : Pass} {rf : RenderedFilter} :
    pass.run config services f = .ok rf ↔
      pass.type.checkName pass.name = .ok () ∧ rf.header = f.header ∧ rf.name = pass.name ∧ rf.type = pass.type ∧
        ((pass.scope config services).terms pass.type { filter := pass.name } f.terms).outcome =
          .ok (rf.terms, rf.groups) := by
  constructor
  · intro h
    obtain ⟨⟨⟩, hcheck, hpass⟩ := bind_eq_ok_iff.mp h
    exact ⟨hcheck, compilePass_eq_ok_iff.mp hpass⟩
  · intro h
    obtain ⟨hcheck, hpass⟩ := h
    exact bind_eq_ok_iff.mpr ⟨(), hcheck, compilePass_eq_ok_iff.mpr hpass⟩

end Pass

theorem FilterType.checkName_inet6 (name : String) : FilterType.inet6.checkName name = .ok () := by
  unfold checkName
  split
  · rfl
  · simp

/-- A pass under another name than the filter's is one whose type takes any name. -/
theorem checkName_passName {selection : FilterSelection} {type : FilterType} (h : type ∈ selection.passes)
    (name : String) : type.checkName (selection.passName name type) = type.checkName name := by
  cases selection with
  | single type' => simp [FilterSelection.passName]
  | mixed =>
    simp only [FilterSelection.passes, List.mem_cons, List.not_mem_nil, or_false] at h
    rcases h with rfl | rfl
    · simp [FilterSelection.passName]
    · rw [FilterType.checkName_inet6, FilterType.checkName_inet6]

theorem outcome_compilePasses {f : Filter} {name : String} {selection : FilterSelection} {types : List FilterType}
    (h : ∀ type ∈ types, type ∈ selection.passes) :
    (compilePasses config services f name selection types).outcome =
      (types.map fun type => ⟨type, selection.passName name type⟩).mapM (Pass.run config services f) := by
  induction types with
  | nil => rfl
  | cons type types ih =>
    obtain ⟨htype, htypes⟩ := List.forall_mem_cons.mp h
    rw [compilePasses, List.map_cons, List.mapM_cons, ← ih htypes]
    simp only [Traced.outcome_bind, Traced.outcome_ofExcept, Traced.outcome_pure, Pass.run,
      checkName_passName htype, bind_assoc]
    rfl

/-- A filter compiles by the passes that its header asks for. -/
theorem outcome_compileFilter (f : Filter) :
    (compileFilter config services f).outcome = f.header.passes config >>= (·.mapM (Pass.run config services f)) := by
  unfold compileFilter Header.passes
  cases f.header.filterName? config.platform with
  | none => rfl
  | some name =>
    simp only [Traced.outcome_bind, Traced.outcome_ofExcept]
    cases filterSelection config f.header name with
    | error e => rfl
    | ok selection => exact outcome_compilePasses fun type h => h

/-! ## Policies -/

theorem outcome_compileFilters_cons (f : Filter) (fs : List Filter) :
    (compileFilters config services (f :: fs)).outcome = (compileFilter config services f).outcome >>= fun rfs =>
      (compileFilters config services fs).outcome >>= fun rest => .ok (rfs ++ rest) := by
  rw [compileFilters]
  simp only [Traced.outcome_bind, Traced.outcome_pure]

theorem outcome_compileFilters_append (fs fs' : List Filter) :
    (compileFilters config services (fs ++ fs')).outcome = (compileFilters config services fs).outcome >>= fun rfs =>
      (compileFilters config services fs').outcome >>= fun rest => .ok (rfs ++ rest) := by
  induction fs with
  | nil =>
    rw [List.nil_append]
    cases (compileFilters config services fs').outcome with
    | error e => rfl
    | ok rfs => rfl
  | cons f fs ih =>
    rw [List.cons_append, outcome_compileFilters_cons, outcome_compileFilters_cons, ih]
    cases (compileFilter config services f).outcome with
    | error e => rfl
    | ok first =>
      cases (compileFilters config services fs).outcome with
      | error e => rfl
      | ok second =>
        cases (compileFilters config services fs').outcome with
        | error e => rfl
        | ok rest => simp [bind, Except.bind]

/-- Filters that compile have all their passes run. -/
theorem exists_of_compileFilters {fs : List Filter} {rfs : List RenderedFilter}
    (h : (compileFilters config services fs).outcome = .ok rfs) {f : Filter} (hf : f ∈ fs) :
    ∃ passes, f.header.passes config = .ok passes ∧
      ∀ pass ∈ passes, ∃ rf ∈ rfs, pass.run config services f = .ok rf := by
  induction fs generalizing rfs with
  | nil => cases hf
  | cons f' fs ih =>
    rw [outcome_compileFilters_cons, bind_eq_ok_iff] at h
    obtain ⟨first, hfirst, h⟩ := h
    obtain ⟨rest, hrest, heq⟩ := bind_eq_ok_iff.mp h
    cases heq
    rcases List.mem_cons.mp hf with rfl | hf
    · rw [outcome_compileFilter, bind_eq_ok_iff] at hfirst
      obtain ⟨passes, hpasses, hrun⟩ := hfirst
      refine ⟨passes, hpasses, fun pass hpass => ?_⟩
      obtain ⟨rf, hrf, hpass⟩ := exists_of_forall₂ (mapM_eq_ok_iff.mp hrun) pass hpass
      exact ⟨rf, List.mem_append_left _ hrf, hpass⟩
    · obtain ⟨passes, hpasses, hrun⟩ := ih hrest hf
      refine ⟨passes, hpasses, fun pass hpass => ?_⟩
      obtain ⟨rf, hrf, hpass⟩ := hrun pass hpass
      exact ⟨rf, List.mem_append_right _ hrf, hpass⟩

/-- Every rendered filter comes from a pass of some filter. -/
theorem mem_compileFilters {fs : List Filter} {rfs : List RenderedFilter}
    (h : (compileFilters config services fs).outcome = .ok rfs) {rf : RenderedFilter} (hrf : rf ∈ rfs) :
    ∃ f ∈ fs, ∃ passes, f.header.passes config = .ok passes ∧
      ∃ pass ∈ passes, pass.run config services f = .ok rf := by
  induction fs generalizing rfs with
  | nil =>
    cases h
    cases hrf
  | cons f fs ih =>
    rw [outcome_compileFilters_cons, bind_eq_ok_iff] at h
    obtain ⟨first, hfirst, h⟩ := h
    obtain ⟨rest, hrest, heq⟩ := bind_eq_ok_iff.mp h
    cases heq
    rcases List.mem_append.mp hrf with hrf | hrf
    · rw [outcome_compileFilter, bind_eq_ok_iff] at hfirst
      obtain ⟨passes, hpasses, hrun⟩ := hfirst
      exact ⟨f, List.mem_cons_self .., passes, hpasses, (mem_of_mapM_ok hrun rf).mp hrf⟩
    · obtain ⟨f', hf, h⟩ := ih hrest hrf
      exact ⟨f', List.mem_cons_of_mem _ hf, h⟩

/-- A policy with one filter of one pass comes to that pass. -/
theorem outcome_compile_of_pass {p : Policy} {f : Filter} {pass : Pass} (hf : p.filtersFor config.platform = [f])
    (hpasses : f.header.passes config = .ok [pass]) (hcheck : pass.type.checkName pass.name = .ok ()) :
    (p.compile config services).outcome =
      (compilePass config services f.header f.terms pass.type pass.name).outcome >>= fun rf => .ok [rf] := by
  unfold Policy.compile
  rw [hf, outcome_compileFilters_cons, outcome_compileFilter, hpasses]
  simp only [bind, Except.bind, List.mapM_cons, List.mapM_nil, Pass.run, hcheck]
  cases (compilePass config services f.header f.terms pass.type pass.name).outcome with
  | error e => rfl
  | ok rf => rfl

theorem mem_compile {p : Policy} {rfs : List RenderedFilter} (h : (p.compile config services).outcome = .ok rfs)
    {rf : RenderedFilter} (hrf : rf ∈ rfs) :
    ∃ f ∈ p.filtersFor config.platform, rf.header = f.header ∧
      (Scope.terms ⟨rf.name, config, services⟩ rf.type { filter := rf.name } f.terms).outcome =
        .ok (rf.terms, rf.groups) := by
  obtain ⟨f, hf, passes, -, pass, -, hrun⟩ := mem_compileFilters h hrf
  obtain ⟨-, hh, hname, htype, hterms⟩ := Pass.run_eq_ok_iff.mp hrun
  rw [hname, htype]
  exact ⟨f, hf, hh, hterms⟩

end

end AccessList
