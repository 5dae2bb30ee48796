import AccessList.Assemble
import AccessList.Proofs.Compile.Run

/-!
# Mixed filters

A mixed filter renders as an extended filter of its name and, right after it, an inet6 filter with `ipv6-` before the
name. The passes are the same, and of the header no pass has more than the comments. So the two ways of writing it
render alike in every policy, and fail alike.
-/

namespace AccessList

section
variable {config : Config} {services : Services}

def filterLines (config : Config) (services : Services) (fs : List Filter) : Except CompileError (List String) :=
  (compileFilters config services fs).outcome.map (·.flatMap (·.parts services))

theorem renderPolicy_eq_filterLines (p : Policy) :
    renderPolicy config services p = (filterLines config services (p.filtersFor config.platform)).map fun lines =>
      "\n".intercalate (lines.map trimmed) := by
  unfold renderPolicy filterLines Policy.compile
  cases (compileFilters config services (p.filtersFor config.platform)).outcome with
  | error e => rfl
  | ok rfs => rfl

theorem filterLines_append (fs fs' : List Filter) :
    filterLines config services (fs ++ fs') = filterLines config services fs >>= fun lines =>
      filterLines config services fs' >>= fun rest => .ok (lines ++ rest) := by
  unfold filterLines
  rw [outcome_compileFilters_append]
  cases (compileFilters config services fs).outcome with
  | error e => rfl
  | ok rfs =>
    cases (compileFilters config services fs').outcome with
    | error e => rfl
    | ok rest => simp [bind, Except.bind, Except.map]

/-- What filters come to does not depend on the filters around them. -/
theorem filterLines_in_context {fs fs' : List Filter}
    (h : filterLines config services fs = filterLines config services fs') (before after : List Filter) :
    filterLines config services (before ++ (fs ++ after)) = filterLines config services (before ++ (fs' ++ after)) := by
  rw [filterLines_append, filterLines_append, filterLines_append before, filterLines_append fs', h]

/-! ## Passes -/

def Pass.lines (config : Config) (services : Services) (f : Filter) (pass : Pass) : Except CompileError (List String) :=
  (pass.run config services f).map (·.parts services)

theorem Pass.lines_congr {h h' : Header} (hcomments : h.comments = h'.comments) (ts : List Term) (pass : Pass) :
    pass.lines config services ⟨h, ts⟩ = pass.lines config services ⟨h', ts⟩ := by
  unfold Pass.lines Pass.run
  simp only [outcome_compilePass]
  cases pass.type.checkName pass.name with
  | error e => rfl
  | ok _ =>
    cases (Scope.terms ⟨pass.name, config, services⟩ pass.type { filter := pass.name } ts).outcome with
    | error e => rfl
    | ok r =>
      simp only [bind, Except.bind, Except.map, RenderedFilter.parts, hcomments]

theorem filterLines_singleton (f : Filter) :
    filterLines config services [f] = (compileFilter config services f).outcome.map (·.flatMap (·.parts services)) := by
  unfold filterLines
  rw [outcome_compileFilters_cons]
  cases (compileFilter config services f).outcome with
  | error e => rfl
  | ok rfs => simp [bind, Except.bind, compileFilters]

theorem filterLines_of_pass {f : Filter} {pass : Pass} (h : f.header.passes config = .ok [pass]) :
    filterLines config services [f] = pass.lines config services f := by
  rw [filterLines_singleton, outcome_compileFilter, h, Pass.lines]
  simp only [bind, Except.bind, List.mapM_cons, List.mapM_nil]
  cases pass.run config services f with
  | error e => rfl
  | ok rf => simp [Except.map, pure, Except.pure]

theorem filterLines_of_two_passes {f : Filter} {first second : Pass}
    (h : f.header.passes config = .ok [first, second]) :
    filterLines config services [f] = first.lines config services f >>= fun lines =>
      second.lines config services f >>= fun rest => .ok (lines ++ rest) := by
  rw [filterLines_singleton, outcome_compileFilter, h, Pass.lines, Pass.lines]
  simp only [bind, Except.bind, List.mapM_cons, List.mapM_nil]
  cases first.run config services f with
  | error e => rfl
  | ok rf =>
    cases second.run config services f with
    | error e => rfl
    | ok rf' => simp [Except.map, pure, Except.pure]

/-! ## The two ways of writing a mixed filter -/

variable {h extended inet6 : Header} {name : String} {rest : List String}

theorem filterLines_mixed (hmixed : h.optionsFor config.platform = name :: "mixed" :: rest)
    (hextended : extended.optionsFor config.platform = [name, "extended"])
    (hinet6 : inet6.optionsFor config.platform = ["ipv6-" ++ name, "inet6"])
    (hcomments : extended.comments = h.comments ∧ inet6.comments = h.comments) (ts : List Term) :
    filterLines config services [⟨h, ts⟩] = filterLines config services [⟨extended, ts⟩, ⟨inet6, ts⟩] := by
  have hmixedWord : FilterSelection.parse "mixed" = .ok .mixed :=
    FilterSelection.parse_eq_ok_iff.mpr rfl
  have hextendedWord : FilterSelection.parse "extended" = .ok (.single .extended) :=
    FilterSelection.parse_eq_ok_iff.mpr rfl
  have hinet6Word : FilterSelection.parse "inet6" = .ok (.single .inet6) :=
    FilterSelection.parse_eq_ok_iff.mpr rfl
  have hboth : h.passes config = .ok [⟨.extended, name⟩, ⟨.inet6, "ipv6-" ++ name⟩] :=
    Header.passes_of_options hmixed hmixedWord
  have hfirst : extended.passes config = .ok [⟨.extended, name⟩] :=
    Header.passes_of_options hextended hextendedWord
  have hsecond : inet6.passes config = .ok [⟨.inet6, "ipv6-" ++ name⟩] :=
    Header.passes_of_options hinet6 hinet6Word
  have hsplit := @filterLines_append config services [⟨extended, ts⟩] [⟨inet6, ts⟩]
  rw [filterLines_of_two_passes (f := ⟨h, ts⟩) hboth, ← List.singleton_append, hsplit,
    filterLines_of_pass (f := ⟨extended, ts⟩) hfirst, filterLines_of_pass (f := ⟨inet6, ts⟩) hsecond,
    Pass.lines_congr hcomments.1, Pass.lines_congr hcomments.2]

/-- A mixed filter renders, or fails, as the extended filter of its name followed by the inet6 filter do that goes by
the name with `ipv6-` before it. -/
theorem mixed_eq_extended_then_inet6 (hmixed : h.optionsFor config.platform = name :: "mixed" :: rest)
    (hextended : extended.optionsFor config.platform = [name, "extended"])
    (hinet6 : inet6.optionsFor config.platform = ["ipv6-" ++ name, "inet6"])
    (hcomments : extended.comments = h.comments ∧ inet6.comments = h.comments) (before after : List Filter)
    (ts : List Term) :
    renderPolicy config services ⟨before ++ ⟨h, ts⟩ :: after⟩ =
      renderPolicy config services ⟨before ++ ⟨extended, ts⟩ :: ⟨inet6, ts⟩ :: after⟩ := by
  have hfor : h.hasPlatform config.platform = true := Header.hasPlatform_of_options (by simp [hmixed])
  have hextendedFor : extended.hasPlatform config.platform = true :=
    Header.hasPlatform_of_options (by simp [hextended])
  have hinet6For : inet6.hasPlatform config.platform = true := Header.hasPlatform_of_options (by simp [hinet6])
  have hone : filterLines config services [⟨h, ts⟩] = filterLines config services [⟨extended, ts⟩, ⟨inet6, ts⟩] :=
    filterLines_mixed hmixed hextended hinet6 hcomments ts
  rw [renderPolicy_eq_filterLines, renderPolicy_eq_filterLines]
  simp only [Policy.filtersFor, List.filter_append, List.filter_cons, hfor, hextendedFor, hinet6For, ite_true]
  exact congrArg _ (filterLines_in_context hone _ _)

end

def edgeFilter (options : List String) : Filter where
  header := { targets := [{ platform := "cisco", options }], comments := ["edge"] }
  terms := [{ name := "rest", actions := [.deny] }]

theorem edgeFilter_mixed_eq_split :
    (edgeFilter ["150", "mixed"]).header.optionsFor "cisco" = ["150", "mixed"] ∧
      (edgeFilter ["150", "extended"]).header.optionsFor "cisco" = ["150", "extended"] ∧
      (edgeFilter ["ipv6-150", "inet6"]).header.optionsFor "cisco" = ["ipv6-" ++ "150", "inet6"] ∧
      renderPolicy ⟨{}, .greatest⟩ .plain ⟨[edgeFilter ["150", "mixed"]]⟩ =
        renderPolicy ⟨{}, .greatest⟩ .plain ⟨[edgeFilter ["150", "extended"], edgeFilter ["ipv6-150", "inet6"]]⟩ ∧
      renderPolicy ⟨{}, .greatest⟩ .plain ⟨[edgeFilter ["150", "mixed"]]⟩ =
        .ok ("\n".intercalate ["no ip access-list extended 150", "ip access-list extended 150", "remark $Id:$",
          " remark edge", " remark Filter type is extended", "", " remark rest", " deny ip any any", "", "exit", "",
          "no ipv6 access-list ipv6-150", "ipv6 access-list ipv6-150", "remark $Id:$", " remark edge",
          " remark Filter type is inet6", "", " remark rest", " deny ipv6 any any", "", "exit", ""]) := by
  have hmixed : (edgeFilter ["150", "mixed"]).header.optionsFor "cisco" = ["150", "mixed"] := by decide +kernel
  have hextended : (edgeFilter ["150", "extended"]).header.optionsFor "cisco" = ["150", "extended"] := by
    decide +kernel
  have hinet6 : (edgeFilter ["ipv6-150", "inet6"]).header.optionsFor "cisco" = ["ipv6-" ++ "150", "inet6"] := by
    decide +kernel
  have hsplit := @mixed_eq_extended_then_inet6 ⟨{}, .greatest⟩ .plain _ _ _ _ _ hmixed hextended hinet6 ⟨rfl, rfl⟩
    [] [] (edgeFilter []).terms
  refine ⟨hmixed, hextended, hinet6, hsplit, ?_⟩
  decide +kernel

-- A number that extended filters must not have fails both ways of writing the filter alike.
example :
    renderPolicy ⟨{}, .greatest⟩ .plain ⟨[edgeFilter ["50", "mixed"]]⟩ = .error (.reservedNumber "50" .extended) ∧
      renderPolicy ⟨{}, .greatest⟩ .plain ⟨[edgeFilter ["50", "extended"], edgeFilter ["ipv6-50", "inet6"]]⟩ =
        .error (.reservedNumber "50" .extended) := by
  decide +kernel

end AccessList
