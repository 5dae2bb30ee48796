import AccessList.Proofs.Compile.Insertion
import AccessList.Proofs.Rule.GroupMeaning

/-!
# Terms without lines

A term that gives no line in any pass of its filter might still have left a group behind, or kept a later term from
defining one. It does neither: groups are collected from terms with lines only. So a policy compiles to the same lines
without the term.
-/

namespace AccessList

/-! ## Why a rendering has no lines -/

theorem Rendering.lines_block_ne_nil {ρ : Type} {write : ρ → String} {remarks : List String} {body : Body ρ}
    (h : remarks ≠ []) : (Rendering.block remarks body).lines write ≠ [] := by
  cases body with
  | verbatim texts => simp [lines, h]
  | rules rs => simp [lines, h]

theorem Side.exists_iff {P : Side → Prop} : (∃ side, P side) ↔ P .source ∨ P .destination := by
  constructor
  · intro h
    obtain ⟨side, h⟩ := h
    cases side with
    | source => exact .inl h
    | destination => exact .inr h
  · intro h
    rcases h with h | h
    · exact ⟨.source, h⟩
    · exact ⟨.destination, h⟩

def Term.Exhausts (t : Term) (family : Family) : Prop := ∃ side, t.declared side ≠ [] ∧ t.remaining side family = []

theorem Term.exhausts_iff_endpoints {t : Term} {family : Family} :
    t.Exhausts family ↔ t.endpoints? .source family = none ∨ t.endpoints? .destination family = none := by
  rw [← Side.exists_iff (P := fun side => t.endpoints? side family = none)]
  exact exists_congr fun side => endpoints?_eq_none_iff.symm

theorem Term.exhausts_iff_addressGroup {t : Term} :
    t.Exhausts .inet ↔ t.addressGroup? .source = none ∨ t.addressGroup? .destination = none := by
  rw [← Side.exists_iff (P := fun side => t.addressGroup? side = none)]
  exact exists_congr fun side => addressGroup?_eq_none_iff.symm

namespace Scope

variable {s : Scope} {type : FilterType} {t : Term}

/-- Why a term that is kept gives no lines. Text that is taken as it is has remarks before it, but for standard
filters. -/
inductive Suppresses (s : Scope) (type : FilterType) (t : Term) : Prop
  | otherPlatform (h : t.excludes s.platform = true)
  | otherFamily (htype : type = .extended) (h : "icmpv6" ∈ t.protocols)
  | noAddresses (htype : type ≠ .standard) (hv : t.verbatims = []) (h : t.Exhausts type.family)
  | otherText (htype : type = .standard) (hv : t.verbatims ≠ []) (h : t.verbatimFor s.platform = [])

theorem standard_lines_eq_nil_iff {rendering : Rendering StandardRule} (h : s.standard t = .ok rendering) :
    rendering.lines (StandardRule.text s.filter) = [] ↔ s.Suppresses .standard t := by
  have hcases : s.Suppresses .standard t ↔
      t.excludes s.platform = true ∨ t.verbatims ≠ [] ∧ t.verbatimFor s.platform = [] := by
    constructor
    · intro hs
      cases hs with
      | otherPlatform hx => exact .inl hx
      | otherText _ hv htext => exact .inr ⟨hv, htext⟩
      | otherFamily htype => cases htype
      | noAddresses htype => exact absurd rfl htype
    · intro hs
      rcases hs with hx | ⟨hv, htext⟩
      · exact .otherPlatform hx
      · exact .otherText rfl hv htext
  rw [hcases]
  have hwritten {body : Body StandardRule} :
      (Rendering.block (s.standardRemarks t) body).lines (StandardRule.text s.filter) ≠ [] :=
    Rendering.lines_block_ne_nil (by simp [standardRemarks])
  cases standard_eq_iff.mp h with
  | otherPlatform hx => simp [Rendering.lines, hx]
  | verbatim hx hv => simp [Rendering.lines, hx, hv]
  | rules hx hv => simp [hwritten, hx, hv]

theorem extended_lines_eq_nil_iff {family : Family} {rendering : Rendering ExtendedRule}
    (h : s.extended family t = .ok rendering) :
    rendering.lines (ExtendedRule.text family) = [] ↔
      t.excludes s.platform = true ∨ family = .inet ∧ "icmpv6" ∈ t.protocols ∨
        t.verbatims = [] ∧ t.Exhausts family := by
  have hwritten {body : Body ExtendedRule} :
      (Rendering.block (s.extendedRemarks t) body).lines (ExtendedRule.text family) ≠ [] :=
    Rendering.lines_block_ne_nil (by simp [extendedRemarks])
  cases extended_eq_iff.mp h with
  | otherPlatform hx => simp [Rendering.lines, hx]
  | icmp6 _ h6 => simp [Rendering.lines, h6]
  | verbatim hx h6 hv => simp [hwritten, hx, h6, hv]
  | noSources _ _ hv _ hs => simp [Rendering.lines, hv, Term.exhausts_iff_endpoints, hs]
  | noDestinations _ _ hv _ _ hd => simp [Rendering.lines, hv, Term.exhausts_iff_endpoints, hd]
  | rules hx h6 hv _ hs hd => simp [hwritten, hx, h6, hv, Term.exhausts_iff_endpoints, hs, hd]

theorem objectGroup_lines_eq_nil_iff {rendering : Rendering GroupRule} (h : s.objectGroup t = .ok rendering) :
    rendering.lines GroupRule.text = [] ↔
      t.excludes s.platform = true ∨ t.verbatims = [] ∧ t.Exhausts .inet := by
  have hwritten {body : Body GroupRule} :
      (Rendering.block (s.groupRemarks t) body).lines GroupRule.text ≠ [] :=
    Rendering.lines_block_ne_nil (by simp [groupRemarks])
  cases objectGroup_eq_iff.mp h with
  | otherPlatform hx => simp [Rendering.lines, hx]
  | verbatim hx hv => simp [hwritten, hx, hv]
  | @noGroup side _ hv hside => cases side <;> simp [Rendering.lines, hv, Term.exhausts_iff_addressGroup, hside]
  | rules hx hv hs hd => simp [hwritten, hx, hv, Term.exhausts_iff_addressGroup, hs, hd]

theorem rendered_eq_nil_iff {why : Option Suppression} {lines : List String}
    (h : s.rendered type t = .ok (why, lines)) : lines = [] ↔ s.Suppresses type t := by
  -- Apart from standard filters, the types differ only in what ICMPv6 means to them.
  have hcases : type ≠ .standard → (s.Suppresses type t ↔ t.excludes s.platform = true ∨
      type = .extended ∧ "icmpv6" ∈ t.protocols ∨ t.verbatims = [] ∧ t.Exhausts type.family) := by
    intro htype
    constructor
    · intro hs
      cases hs with
      | otherPlatform hx => exact .inl hx
      | otherFamily hextended h6 => exact .inr (.inl ⟨hextended, h6⟩)
      | noAddresses _ hv hside => exact .inr (.inr ⟨hv, hside⟩)
      | otherText hstandard => exact absurd hstandard htype
    · intro hs
      rcases hs with hx | ⟨hextended, h6⟩ | ⟨hv, hside⟩
      · exact .otherPlatform hx
      · exact .otherFamily hextended h6
      · exact .noAddresses htype hv hside
  cases type with
  | standard =>
    obtain ⟨rendering, hok, heq⟩ := map_eq_ok_iff.mp h
    cases heq
    exact standard_lines_eq_nil_iff hok
  | extended =>
    obtain ⟨rendering, hok, heq⟩ := map_eq_ok_iff.mp h
    cases heq
    rw [hcases (by decide), extended_lines_eq_nil_iff hok]
    simp [FilterType.family]
  | objectGroup =>
    obtain ⟨rendering, hok, heq⟩ := map_eq_ok_iff.mp h
    cases heq
    rw [hcases (by decide), objectGroup_lines_eq_nil_iff hok]
    simp [FilterType.family]
  | inet6 =>
    obtain ⟨rendering, hok, heq⟩ := map_eq_ok_iff.mp h
    cases heq
    rw [hcases (by decide), extended_lines_eq_nil_iff hok]
    simp [FilterType.family]

/-! ## What a term comes to in a pass -/

def output (s : Scope) (type : FilterType) (t : Term) : List String :=
  match (s.prepare type t).outcome with
  | .ok (some t') => ((s.rendered type t').toOption.map (·.2)).getD []
  | _ => []

inductive Silences (s : Scope) (type : FilterType) (t : Term) : Prop
  | inapplicable
    (h : s.services.prepare { t with name := s.services.truncateName t.name } type.family = .ok none)
  | expired {t' : Term}
    (h : s.services.prepare { t with name := s.services.truncateName t.name } type.family = .ok (some t'))
    (hexpired : t'.expiration.any s.config.isExpired = true)
  | suppressed {t' : Term} (h : (s.prepare type t).outcome = .ok (some t')) (hs : s.Suppresses type t')

theorem output_of_prepare_none (h : (s.prepare type t).outcome = .ok none) : s.output type t = [] := by
  simp [output, h]

theorem output_of_rendered {t' : Term} {why : Option Suppression} {lines : List String}
    (h : (s.prepare type t).outcome = .ok (some t')) (hr : s.rendered type t' = .ok (why, lines)) :
    s.output type t = lines := by
  simp [output, h, hr, Except.toOption]

theorem output_eq_nil_iff {o : Option Term} (h : (s.prepare type t).outcome = .ok o)
    (hr : ∀ t' ∈ o, ∃ r, s.rendered type t' = .ok r) : s.output type t = [] ↔ s.Silences type t := by
  cases o with
  | none =>
    have hsilences : s.Silences type t := by
      rw [outcome_prepare, map_eq_ok_iff] at h
      obtain ⟨o, ho, hfilter⟩ := h
      cases hservice : s.services.prepare { t with name := s.services.truncateName t.name } type.family with
      | error e => rw [hservice] at ho; cases ho
      | ok prepared =>
        rw [hservice] at ho
        cases ho
        -- The service has dropped the term, or its expiration has.
        cases o with
        | none => exact .inapplicable hservice
        | some t' => exact .expired hservice (by simpa [Option.filter] using hfilter)
    simp [output_of_prepare_none h, hsilences]
  | some t' =>
    obtain ⟨⟨why, lines⟩, hlines⟩ := hr t' rfl
    rw [output_of_rendered h hlines, rendered_eq_nil_iff hlines]
    constructor
    · intro hs
      exact .suppressed h hs
    · intro hs
      cases hs with
      | inapplicable hnone => simp [outcome_prepare, hnone, Except.mapError, Except.map] at h
      | expired hsome hexpired =>
        simp [outcome_prepare, hsome, hexpired, Except.mapError, Except.map, Option.filter] at h
      | suppressed h' hs =>
        rw [h] at h'
        cases h'
        exact hs

theorem output_eq_nil_iff_of_terms {gs gs' : ObjectGroups} {ts : List Term} {rts : List RenderedTerm}
    (h : (s.terms type gs ts).outcome = .ok (rts, gs')) (ht : t ∈ ts) : s.output type t = [] ↔ s.Silences type t := by
  obtain ⟨hprepare, hrendered, -⟩ := terms_eq_ok_iff.mp h
  obtain ⟨o, ho⟩ := hprepare t ht
  apply output_eq_nil_iff ho
  intro t' ht'
  have hkept : t' ∈ s.kept type ts := List.mem_filterMap.mpr ⟨t, ht, by rw [ho]; exact ht'⟩
  obtain ⟨rt, -, hrt⟩ := exists_of_forall₂ hrendered t' hkept
  obtain ⟨why, hlines⟩ := hrt.lines
  exact ⟨_, hlines⟩

/-- Groups are collected from terms with lines only. -/
theorem collect_of_no_lines {why : Option Suppression} (h : s.rendered type t = .ok (why, [])) (gs : ObjectGroups) :
    s.collect type gs t = gs := by
  unfold collect
  by_cases htype : type = .objectGroup
  · subst htype
    obtain ⟨rendering, hok, -, hlines⟩ := rendered_objectGroup_eq_ok_iff.mp h
    have hgroups : t.groups s.platform = [] := by
      unfold Term.groups
      rcases (objectGroup_lines_eq_nil_iff hok).mp hlines.symm with hx | ⟨-, hexhausts⟩
      · simp [hx]
      · rcases Term.exhausts_iff_addressGroup.mp hexhausts with hs | hd
        · simp [hs]
        · cases t.addressGroup? .source with
          | none => simp
          | some source => simp [hd]
    rw [if_pos rfl, ObjectGroups.add, hgroups]
    rfl
  · rw [if_neg htype]

/-! ## Runs without the term -/

theorem flatMap_lines_terms {gs gs' : ObjectGroups} {ts : List Term} {rts : List RenderedTerm}
    (h : (s.terms type gs ts).outcome = .ok (rts, gs')) : rts.flatMap (·.lines) = ts.flatMap (s.output type) := by
  induction ts generalizing gs rts with
  | nil =>
    cases h
    rfl
  | cons t ts ih =>
    rw [outcome_terms_cons] at h
    obtain ⟨o, ho, h⟩ := bind_eq_ok_iff.mp h
    rw [List.flatMap_cons]
    cases o with
    | none => rw [output_of_prepare_none ho, ih h, List.nil_append]
    | some t' =>
      simp only [bind_eq_ok_iff, render_eq_ok_iff] at h
      obtain ⟨-, -, lines, ⟨why, hlines⟩, ⟨rest, gs''⟩, hrest, heq⟩ := h
      cases heq
      rw [List.flatMap_cons, output_of_rendered ho hlines, ih hrest]

theorem terms_remove {gs gs' : ObjectGroups} {front back : List Term} {rts : List RenderedTerm}
    (h : (s.terms type gs (front ++ t :: back)).outcome = .ok (rts, gs')) (ht : s.output type t = []) :
    ∃ rts', (s.terms type gs (front ++ back)).outcome = .ok (rts', gs') := by
  rw [outcome_terms_append] at h
  obtain ⟨⟨first, gs₁⟩, hfirst, h⟩ := bind_eq_ok_iff.mp h
  obtain ⟨⟨rest, gs₂⟩, hrest, heq⟩ := bind_eq_ok_iff.mp h
  cases heq
  rw [outcome_terms_cons] at hrest
  obtain ⟨o, ho, hrest⟩ := bind_eq_ok_iff.mp hrest
  -- Both runs come to the term with the same groups, so it is enough that the term leaves these as they are.
  rw [outcome_terms_append, hfirst]
  cases o with
  | none =>
    refine ⟨first ++ rest, ?_⟩
    simp only [bind, Except.bind, hrest]
  | some t' =>
    simp only [bind_eq_ok_iff, render_eq_ok_iff] at hrest
    obtain ⟨-, -, lines, ⟨why, hlines⟩, ⟨others, gs₃⟩, hback, heq⟩ := hrest
    cases heq
    rw [output_of_rendered ho hlines] at ht
    subst ht
    rw [collect_of_no_lines hlines] at hback
    refine ⟨first ++ others, ?_⟩
    simp only [bind, Except.bind, hback]

end Scope

structure RenderedFilter.Alike (rf rf' : RenderedFilter) : Prop where
  header : rf.header = rf'.header
  name : rf.name = rf'.name
  type : rf.type = rf'.type
  groups : rf.groups = rf'.groups
  lines : rf.terms.flatMap (·.lines) = rf'.terms.flatMap (·.lines)

theorem RenderedFilter.Alike.refl (rf : RenderedFilter) : rf.Alike rf := ⟨rfl, rfl, rfl, rfl, rfl⟩

theorem assemble_congr {services : Services} {rfs rfs' : List RenderedFilter}
    (h : List.Forall₂ RenderedFilter.Alike rfs rfs') : assemble services rfs = assemble services rfs' := by
  have hparts : rfs.flatMap (·.parts services) = rfs'.flatMap (·.parts services) := by
    induction h with
    | nil => rfl
    | cons halike _ ih =>
      rw [List.flatMap_cons, List.flatMap_cons, ih, RenderedFilter.parts, RenderedFilter.parts, halike.header,
        halike.name, halike.type, halike.groups, halike.lines]
  rw [assemble, assemble, hparts]

section
variable {config : Config} {services : Services} {t : Term}

def Header.Silences (h : Header) (config : Config) (services : Services) (t : Term) : Prop :=
  ∀ passes, h.passes config = .ok passes → ∀ pass ∈ passes, (pass.scope config services).output pass.type t = []

theorem Pass.run_remove {pass : Pass} {header : Header} {front back : List Term} {rf : RenderedFilter}
    (h : pass.run config services ⟨header, front ++ t :: back⟩ = .ok rf)
    (ht : (pass.scope config services).output pass.type t = []) :
    ∃ rf', pass.run config services ⟨header, front ++ back⟩ = .ok rf' ∧ rf.Alike rf' := by
  obtain ⟨hcheck, hheader, hname, htype, hterms⟩ := run_eq_ok_iff.mp h
  obtain ⟨rts, hrts⟩ := Scope.terms_remove hterms ht
  refine ⟨{ rf with terms := rts }, run_eq_ok_iff.mpr ⟨hcheck, hheader, hname, htype, hrts⟩, rfl, rfl, rfl, rfl, ?_⟩
  rw [Scope.flatMap_lines_terms hterms, Scope.flatMap_lines_terms hrts]
  simp [ht]

theorem compileFilter_remove {header : Header} {front back : List Term} {rfs : List RenderedFilter}
    (h : (compileFilter config services ⟨header, front ++ t :: back⟩).outcome = .ok rfs)
    (ht : header.Silences config services t) :
    ∃ rfs', (compileFilter config services ⟨header, front ++ back⟩).outcome = .ok rfs' ∧
      List.Forall₂ RenderedFilter.Alike rfs rfs' := by
  rw [outcome_compileFilter, bind_eq_ok_iff] at h
  obtain ⟨passes, hpasses, hrun⟩ := h
  obtain ⟨rfs', hrun', halike⟩ := exists_mapM
    (fun pass hpass rf hrf => Pass.run_remove hrf (ht passes hpasses pass hpass)) hrun
  refine ⟨rfs', ?_, halike⟩
  rw [outcome_compileFilter, hpasses]
  exact hrun'

theorem compile_remove {l : Place} {rfs : List RenderedFilter}
    (h : ((l.fill [t]).compile config services).outcome = .ok rfs) (ht : l.header.Silences config services t) :
    ∃ rfs', ((l.fill []).compile config services).outcome = .ok rfs' ∧
      List.Forall₂ RenderedFilter.Alike rfs rfs' := by
  have hrefl : ∀ rfs : List RenderedFilter, List.Forall₂ RenderedFilter.Alike rfs rfs := fun rfs =>
    List.forall₂_same.mpr fun rf _ => .refl rf
  unfold Policy.compile at h ⊢
  rw [l.filtersFor_fill] at h ⊢
  by_cases hplatform : l.header.hasPlatform config.platform = true
  · simp only [hplatform, ite_true, List.append_assoc, List.singleton_append, List.nil_append,
      outcome_compileFilters_append, outcome_compileFilters_cons] at h ⊢
    obtain ⟨before, hbefore, h⟩ := bind_eq_ok_iff.mp h
    obtain ⟨rest, hrest, heq⟩ := bind_eq_ok_iff.mp h
    cases heq
    obtain ⟨own, hown, h⟩ := bind_eq_ok_iff.mp hrest
    obtain ⟨after, hafter, heq⟩ := bind_eq_ok_iff.mp h
    cases heq
    obtain ⟨own', hown', halike⟩ := compileFilter_remove hown ht
    refine ⟨before ++ (own' ++ after), ?_, List.rel_append (hrefl before) (List.rel_append halike (hrefl after))⟩
    simp only [bind, Except.bind, hbefore, hown', hafter]
  -- A filter for other platforms is left out with the term and without it.
  · rw [if_neg hplatform] at h ⊢
    exact ⟨rfs, h, hrefl rfs⟩

/-- In a policy that compiles, every pass of a filter has the lines that its terms come to, and a term comes to no lines
for the reasons of `Scope.Silences` only. A term without lines in all passes leaves no trace: without it the policy
renders as the same text, from the same groups. -/
theorem silent_term_leaves_no_trace {l : Place} {rfs : List RenderedFilter}
    (h : ((l.fill [t]).compile config services).outcome = .ok rfs) :
    (∀ passes, l.header.passes config = .ok passes → ∀ pass ∈ passes,
      (∃ rf ∈ rfs, rf.name = pass.name ∧ rf.type = pass.type ∧ rf.terms.flatMap (·.lines) =
        (l.front ++ [t] ++ l.back).flatMap ((pass.scope config services).output pass.type)) ∧
      ((pass.scope config services).output pass.type t = [] ↔ (pass.scope config services).Silences pass.type t)) ∧
    (l.header.Silences config services t →
      renderPolicy config services (l.fill []) = renderPolicy config services (l.fill [t]) ∧
      ∃ rfs', ((l.fill []).compile config services).outcome = .ok rfs' ∧
        List.Forall₂ RenderedFilter.Alike rfs rfs') := by
  constructor
  · intro passes hpasses pass hpass
    have hplatform : l.header.hasPlatform config.platform = true := Header.hasPlatform_of_passes hpasses
    have hown : ⟨l.header, l.front ++ [t] ++ l.back⟩ ∈ (l.fill [t]).filtersFor config.platform := by
      rw [l.filtersFor_fill, if_pos hplatform]
      simp
    obtain ⟨passes', hpasses', hrun⟩ := exists_of_compileFilters h hown
    rw [hpasses] at hpasses'
    cases hpasses'
    obtain ⟨rf, hmem, hrf⟩ := hrun pass hpass
    obtain ⟨-, -, hname, htype, hterms⟩ := Pass.run_eq_ok_iff.mp hrf
    exact ⟨⟨rf, hmem, hname, htype, Scope.flatMap_lines_terms hterms⟩,
      Scope.output_eq_nil_iff_of_terms hterms (by simp)⟩
  · intro ht
    obtain ⟨rfs', h', halike⟩ := compile_remove h ht
    refine ⟨?_, rfs', h', halike⟩
    rw [renderPolicy, renderPolicy, h, h', Except.map, Except.map, assemble_congr halike]

end

/-- None of its destinations is of IPv4. Its sources go by a token that `wholeTerm` has too, for other blocks. -/
def nowhereTerm : Term :=
  { Scope.halfTerm with name := "nowhere", destinations := [{ block := .all .inet6 }] }

def corpPlace : Place where
  before := []
  header := Scope.corpFilter.header
  front := []
  back := [Scope.wholeTerm]
  after := []

def nowhereFilter : RenderedFilter :=
  { Scope.corpFilter with
    terms := [⟨"nowhere", []⟩, ⟨"whole", ["", " remark whole", " deny ip addrgroup CORP addrgroup ANY"]⟩] }

theorem nowhereTerm_leaves_no_trace :
    ((corpPlace.fill [nowhereTerm]).compile ⟨{}, .greatest⟩ .plain).outcome = .ok [nowhereFilter] ∧
      corpPlace.header.Silences ⟨{}, .greatest⟩ .plain nowhereTerm ∧
      renderPolicy ⟨{}, .greatest⟩ .plain (corpPlace.fill []) =
        renderPolicy ⟨{}, .greatest⟩ .plain (corpPlace.fill [nowhereTerm]) ∧
      renderPolicy ⟨{}, .greatest⟩ .plain (corpPlace.fill [nowhereTerm]) =
        .ok ("\n".intercalate ["", "object-group ip address CORP", " 10.0.0.0 255.0.0.0", "exit", "",
          "object-group ip address ANY", " 0.0.0.0 0.0.0.0", "exit", "", "no ip access-list extended og",
          "ip access-list extended og", "remark $Id:$", " remark Filter type is object-group", "", " remark whole",
          " deny ip addrgroup CORP addrgroup ANY", "", "exit", ""]) := by
  have hcompile : ((corpPlace.fill [nowhereTerm]).compile ⟨{}, .greatest⟩ .plain).outcome = .ok [nowhereFilter] := by
    decide +kernel
  have hpasses : corpPlace.header.passes ⟨{}, .greatest⟩ = .ok [⟨.objectGroup, "og"⟩] := by decide +kernel
  have houtput : Scope.output ⟨"og", ⟨{}, .greatest⟩, .plain⟩ .objectGroup nowhereTerm = [] := by decide +kernel
  have hsilent : corpPlace.header.Silences ⟨{}, .greatest⟩ .plain nowhereTerm := by
    intro passes h pass hpass
    rw [hpasses] at h
    cases h
    cases List.mem_singleton.mp hpass
    exact houtput
  obtain ⟨-, hremove⟩ := silent_term_leaves_no_trace hcompile
  refine ⟨hcompile, hsilent, (hremove hsilent).1, ?_⟩
  decide +kernel

end AccessList
