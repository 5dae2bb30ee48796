import AccessList.Proofs.Compile.Silence
import AccessList.Proofs.Net.AddressText
import AccessList.Proofs.Rule.GroupNames
import AccessList.Proofs.Text.Wrapping

/-!
# Blanks at the ends of lines

Every text that goes into the configuration is trimmed, which sees to the last of its lines. Rules, comments and stamps
are of one line each. The name of a filter or a term, verbatim text and the name of a group are copied with the newlines
in them, and so are the blanks before these.
-/

namespace AccessList

open Text

/-! ## Texts of one line -/

theorem Address.newline_not_mem_text (a : Address) : '\n' ∉ a.text.toList := by
  rw [text, String.toList_ofList]
  exact fun hc => absurd (mem_marks hc) (by decide)

theorem newline_not_mem_of_isNumeric {s : String} (h : isNumeric s = true) : '\n' ∉ s.toList := by
  simp only [isNumeric, Bool.and_eq_true, List.all_eq_true] at h
  exact fun hc => absurd (h.2 _ hc) (by decide)

theorem newline_not_mem_lead (filter : String) : '\n' ∉ (StandardRule.lead filter).toList := by
  unfold StandardRule.lead
  by_cases h : isNumeric filter = true
  · simp [h, newline_not_mem_of_isNumeric h]
  · simp [h]

theorem StandardRule.newline_not_mem_text (filter : String) (r : StandardRule) : '\n' ∉ (r.text filter).toList := by
  have hkeyword : '\n' ∉ r.action.keyword.toList := by cases r.action <;> decide
  have hblock : ∀ numeric, '\n' ∉ (blockText numeric r.block).toList := by
    intro numeric
    cases r.block with
    | none => simp [blockText]
    | some p =>
      simp only [blockText]
      split
      · cases numeric <;> simp [Address.newline_not_mem_text]
      · simp [Address.newline_not_mem_text]
  have hlog : '\n' ∉ (if r.log then " log" else "").toList := by cases r.log <;> decide
  simp [text, newline_not_mem_lead, hkeyword, hblock, hlog]

theorem ExtendedRule.newline_not_mem_text (family : Family) (r : ExtendedRule) : '\n' ∉ (r.text family).toList :=
  newline_not_mem_collapse _

theorem GroupRule.newline_not_mem_text (r : GroupRule) : '\n' ∉ r.text.toList := newline_not_mem_collapse _

theorem PortRange.newline_not_mem_text (r : PortRange) : '\n' ∉ r.text.toList := fun hc =>
  r.no_blank_text _ hc (by decide)

/-! ## One term -/

namespace Scope

variable {s : Scope} {type : FilterType} {t : Term}

inductive Shows (s : Scope) (type : FilterType) (t : Term) : String → Prop
  | name (hs : ¬s.Suppresses type t) (h : type = .standard → t.verbatims = []) : Shows s type t (" " ++ t.name)
  | verbatim {text : String} (hs : ¬s.Suppresses type t) (h : text ∈ t.verbatimFor s.platform) : Shows s type t text

inductive Lays {ρ : Type} (s : Scope) (t : Term) (remarks : List String) : Rendering ρ → Prop
  | suppressed (why : Suppression) : Lays s t remarks (.suppressed why)
  | verbatim (hv : t.verbatims ≠ []) : Lays s t remarks (.block remarks (.verbatim (t.verbatimFor s.platform)))
  | rules (hv : t.verbatims = []) (rs : List ρ) : Lays s t remarks (.block remarks (.rules rs))

theorem lays_standard {rendering : Rendering StandardRule} (h : s.standard t = .ok rendering) :
    s.Lays t (if t.verbatims = [] then s.standardRemarks t else []) rendering := by
  cases standard_eq_iff.mp h with
  | otherPlatform => exact .suppressed _
  | verbatim _ hv =>
    rw [if_neg hv]
    exact .verbatim hv
  | rules _ hv =>
    rw [if_pos hv]
    exact .rules hv _

theorem lays_extended {family : Family} {rendering : Rendering ExtendedRule} (h : s.extended family t = .ok rendering) :
    s.Lays t (s.extendedRemarks t) rendering := by
  cases extended_eq_iff.mp h with
  | verbatim _ _ hv => exact .verbatim hv
  | rules _ _ hv => exact .rules hv _
  | otherPlatform | icmp6 | noSources | noDestinations => exact .suppressed _

theorem lays_objectGroup {rendering : Rendering GroupRule} (h : s.objectGroup t = .ok rendering) :
    s.Lays t (s.groupRemarks t) rendering := by
  cases objectGroup_eq_iff.mp h with
  | verbatim _ hv => exact .verbatim hv
  | rules _ hv => exact .rules hv _
  | otherPlatform | noGroup => exact .suppressed _

theorem Lays.tidy_iff {ρ : Type} {write : ρ → String} {remarks : List String} {rendering : Rendering ρ}
    (h : s.Lays t remarks rendering) (hwrite : ∀ r, '\n' ∉ (write r).toList) (hne : rendering.lines write ≠ []) :
    (∀ line ∈ rendering.lines write, Tidy (trimmed line)) ↔
      (∀ line ∈ remarks, Tidy (trimmed line)) ∧ ∀ text ∈ t.verbatimFor s.platform, Tidy (trimmed text) := by
  cases h with
  | suppressed why => exact absurd rfl hne
  | verbatim hv => rw [Rendering.lines, List.forall_mem_append]
  | rules hv rs =>
    have hrules : ∀ line ∈ rs.map write, Tidy (trimmed line) := by
      intro line hline
      obtain ⟨r, -, rfl⟩ := List.mem_map.mp hline
      exact tidy_trimmed (hwrite r)
    have hnone : t.verbatimFor s.platform = [] := by simp [Term.verbatimFor, hv]
    rw [Rendering.lines, List.forall_mem_append, hnone]
    exact and_congr_right fun _ => iff_of_true hrules (List.forall_mem_nil _)

theorem tidy_remarks_iff {lead name : String} {rest : List String} (hline : '\n' ∉ lead.toList)
    (hlast : lead.toList.getLast? = some ' ') (hrest : ∀ line ∈ rest, '\n' ∉ line.toList) :
    (∀ line ∈ (name :: rest).map (lead ++ ·), Tidy (trimmed line)) ↔ Tidy (trimmed (" " ++ name)) := by
  have htidy : ∀ line ∈ rest.map (lead ++ ·), Tidy (trimmed line) := by
    intro line hmem
    obtain ⟨line', hline', rfl⟩ := List.mem_map.mp hmem
    apply tidy_trimmed
    rw [String.toList_append, List.mem_append, not_or]
    exact ⟨hline, hrest line' hline'⟩
  rw [List.map_cons, List.forall_mem_cons, tidy_trimmed_append_iff hline hlast]
  exact and_iff_left htidy

theorem newline_not_mem_wrapped (hwrap : s.services.wrapComment = Text.wrap) :
    ∀ line ∈ s.wrapped t, '\n' ∉ line.toList := by
  intro line hline
  obtain ⟨comment, -, hline⟩ := List.mem_flatMap.mp hline
  rw [hwrap] at hline
  exact (laidOut_wrap _ _).newline_not_mem hline

theorem tidy_standardRemarks_iff (hwrap : s.services.wrapComment = Text.wrap) :
    (∀ line ∈ s.standardRemarks t, Tidy (trimmed line)) ↔ Tidy (trimmed (" " ++ t.name)) := by
  have hremark : '\n' ∉ ("remark " : String).toList ∧ ("remark " : String).toList.getLast? = some ' ' := by decide
  have hline : '\n' ∉ (StandardRule.lead s.filter ++ "remark ").toList := by
    rw [String.toList_append, List.mem_append, not_or]
    exact ⟨newline_not_mem_lead s.filter, hremark.1⟩
  have hlast : (StandardRule.lead s.filter ++ "remark ").toList.getLast? = some ' ' := by
    rw [String.toList_append, List.getLast?_append, hremark.2]
    rfl
  exact tidy_remarks_iff hline hlast (newline_not_mem_wrapped hwrap)

theorem tidy_groupRemarks_iff (hwrap : s.services.wrapComment = Text.wrap) :
    (∀ line ∈ s.groupRemarks t, Tidy (trimmed line)) ↔ Tidy (trimmed (" " ++ t.name)) := by
  rw [groupRemarks, List.forall_mem_cons,
    tidy_remarks_iff (by decide) (by decide) (newline_not_mem_wrapped hwrap)]
  exact and_iff_right (by decide)

/-- Comments and owners are split into lines before they are cut. -/
theorem exists_extendedRemarks (s : Scope) (t : Term) :
    ∃ rest, (∀ line ∈ rest, '\n' ∉ line.toList) ∧ s.extendedRemarks t = "" :: (t.name :: rest).map (" remark " ++ ·) := by
  let cut := fun line : String => String.ofList (line.toList.take s.config.settings.remarkMaxLength)
  let comments := t.comments ++ (t.owner.map ("Owner: " ++ ·)).toList
  refine ⟨(comments.flatMap lines).map cut, fun line hline => ?_, ?_⟩
  · obtain ⟨line', hline', rfl⟩ := List.mem_map.mp hline
    obtain ⟨comment, -, hmem⟩ := List.mem_flatMap.mp hline'
    rw [String.toList_ofList]
    exact fun hc => newline_not_mem_lines hmem (List.mem_of_mem_take hc)
  · rw [List.map_cons, List.map_map]
    rfl

theorem tidy_extendedRemarks_iff :
    (∀ line ∈ s.extendedRemarks t, Tidy (trimmed line)) ↔ Tidy (trimmed (" " ++ t.name)) := by
  obtain ⟨rest, hrest, hremarks⟩ := s.exists_extendedRemarks t
  rw [hremarks, List.forall_mem_cons, tidy_remarks_iff (by decide) (by decide) hrest]
  exact and_iff_right (by decide)

/-- The lines of a term are tidy if what it copies is. -/
theorem tidy_rendered_iff {why : Option Suppression} {ls : List String} (hwrap : s.services.wrapComment = Text.wrap)
    (h : s.rendered type t = .ok (why, ls)) :
    (∀ line ∈ ls, Tidy (trimmed line)) ↔ ∀ text, s.Shows type t text → Tidy (trimmed text) := by
  have hnil := rendered_eq_nil_iff h
  by_cases hs : s.Suppresses type t
  · rw [hnil.mpr hs]
    refine iff_of_true (List.forall_mem_nil _) fun text htext => ?_
    cases htext with
    | name hs' => exact absurd hs hs'
    | verbatim hs' => exact absurd hs hs'
  have hshows : (∀ text, s.Shows type t text → Tidy (trimmed text)) ↔
      ((type = .standard → t.verbatims = []) → Tidy (trimmed (" " ++ t.name))) ∧
        ∀ text ∈ t.verbatimFor s.platform, Tidy (trimmed text) := by
    refine ⟨fun hall => ⟨fun hname => hall _ (.name hs hname), fun text htext => hall _ (.verbatim hs htext)⟩, ?_⟩
    intro ⟨hname, hverbatim⟩ text htext
    cases htext with
    | name _ h => exact hname h
    | verbatim _ h => exact hverbatim text h
  have hne := mt hnil.mp hs
  rw [hshows]
  cases type with
  | standard =>
    obtain ⟨rendering, hok, heq⟩ := map_eq_ok_iff.mp h
    cases heq
    rw [(lays_standard hok).tidy_iff (StandardRule.newline_not_mem_text s.filter) hne]
    by_cases hv : t.verbatims = []
    · simp [hv, tidy_standardRemarks_iff hwrap]
    · simp [hv]
  | objectGroup =>
    obtain ⟨rendering, hok, heq⟩ := map_eq_ok_iff.mp h
    cases heq
    rw [(lays_objectGroup hok).tidy_iff GroupRule.newline_not_mem_text hne, tidy_groupRemarks_iff hwrap]
    simp
  | extended | inet6 =>
    obtain ⟨rendering, hok, heq⟩ := map_eq_ok_iff.mp h
    cases heq
    rw [(lays_extended hok).tidy_iff (ExtendedRule.newline_not_mem_text _) hne, tidy_extendedRemarks_iff]
    simp

end Scope

/-! ## The groups of a filter -/

theorem GroupDefinition.tidy_lines_iff (d : GroupDefinition) :
    (∀ line ∈ d.lines, Tidy (trimmed line)) ↔ ∀ g ∈ d.addressGroup?, Tidy (trimmed (" " ++ g.token)) := by
  have hend : ∀ line ∈ ["exit", ""], Tidy (trimmed line) := by decide
  cases d with
  | addresses g =>
    have hmembers : ∀ line ∈ g.members.map fun p => " " ++ p.network.text ++ " " ++ p.netmask.text,
        Tidy (trimmed line) := by
      intro line hline
      obtain ⟨p, -, rfl⟩ := List.mem_map.mp hline
      apply tidy_trimmed
      simp [Address.newline_not_mem_text]
    rw [lines, List.forall_mem_append, List.forall_mem_cons, and_iff_left hend, and_iff_left hmembers,
      tidy_trimmed_append_iff (by decide) (by decide)]
    simp [addressGroup?]
  | ports r =>
    have hports : '\n' ∉ (if r.isSingle then " eq " ++ toString r.low.val
        else " range " ++ toString r.low.val ++ " " ++ toString r.high.val).toList := by
      split <;> simp [newline_not_mem_toDigits]
    have hnone : ∀ g ∈ (ports r).addressGroup?, Tidy (trimmed (" " ++ g.token)) := by simp [addressGroup?]
    refine iff_of_true ?_ hnone
    rw [lines, List.forall_mem_cons, List.forall_mem_cons]
    exact ⟨tidy_trimmed (by simp [PortRange.newline_not_mem_text]), tidy_trimmed hports, hend⟩

namespace ObjectGroups

theorem tidy_lines_iff (gs : ObjectGroups) :
    (∀ line ∈ gs.lines, Tidy (trimmed line)) ↔ ∀ token ∈ gs.tokens, Tidy (trimmed (" " ++ token)) := by
  have hempty : ∀ line ∈ (if gs.definitions = [] then [] else [""]), Tidy (trimmed line) := by
    split <;> decide
  have hdefinitions : (∀ line ∈ gs.definitions.flatMap (·.lines), Tidy (trimmed line)) ↔
      ∀ d ∈ gs.definitions, ∀ g ∈ d.addressGroup?, Tidy (trimmed (" " ++ g.token)) := by
    rw [List.forall_mem_flatMap]
    exact forall₂_congr fun d _ => d.tidy_lines_iff
  rw [lines_eq, List.forall_mem_append, and_iff_right hempty, hdefinitions]
  simp only [tokens, List.mem_map, List.mem_filterMap]
  refine ⟨?_, fun h d hd g hg => h _ ⟨g, ⟨d, hd, hg⟩, rfl⟩⟩
  rintro h _ ⟨g, ⟨d, hd, hg⟩, rfl⟩
  exact h d hd g hg

/-- The names of groups that a pass defines are those of the groups of its terms. -/
theorem mem_tokens_collect_iff {s : Scope} {type : FilterType} {ts : List Term} {token : String} :
    token ∈ (ts.foldl (s.collect type) { filter := s.filter }).tokens ↔
      type = .objectGroup ∧ ∃ t ∈ ts, ∃ g, .addresses g ∈ t.groups s.platform ∧ g.token = token := by
  by_cases htype : type = .objectGroup
  · subst htype
    rw [mem_tokens_iff, Scope.lookup_addresses, ne_eq, Option.toList_eq_nil_iff, Option.map_eq_none_iff,
      List.find?_eq_none]
    simp only [List.mem_flatMap, List.mem_filterMap, decide_eq_true_eq, not_forall, not_not,
      true_and]
    constructor
    · intro h
      obtain ⟨g, ⟨t, ht, d, hd, hg⟩, htoken⟩ := h
      cases d with
      | addresses g' => cases hg; exact ⟨t, ht, g, hd, htoken⟩
      | ports r => cases hg
    · intro h
      obtain ⟨t, ht, g, hg, htoken⟩ := h
      exact ⟨g, ⟨t, ht, _, hg, rfl⟩, htoken⟩
  · have hcollect : ∀ gs, ts.foldl (s.collect type) gs = gs := by
      intro gs
      induction ts with
      | nil => rfl
      | cons t ts ih => rw [List.foldl_cons, Scope.collect, if_neg htype, ih]
    rw [hcollect]
    exact iff_of_false List.not_mem_nil fun h => htype h.1

end ObjectGroups

/-! ## Policies -/

inductive Scope.Copies (s : Scope) (type : FilterType) (ts : List Term) : String → Prop
  | filter : Copies s type ts (" " ++ s.filter)
  | term {t : Term} {text : String} (ht : t ∈ s.kept type ts) (h : s.Shows type t text) : Copies s type ts text
  | group {t : Term} {g : AddressGroup} (htype : type = .objectGroup) (ht : t ∈ s.kept type ts)
    (hg : .addresses g ∈ t.groups s.platform) : Copies s type ts (" " ++ g.token)

theorem FilterType.tidy_lifecycle_iff (type : FilterType) (filter : String) :
    (∀ line ∈ type.lifecycle filter, Tidy (trimmed line)) ↔ Tidy (trimmed (" " ++ filter)) := by
  have hlead : ∀ lead ∈ ["no access-list ", "no ip access-list standard ", "ip access-list standard ",
      "no ip access-list extended ", "ip access-list extended ", "no ipv6 access-list ", "ipv6 access-list "],
      Tidy (trimmed (lead ++ filter)) ↔ Tidy (trimmed (" " ++ filter)) := by
    intro lead hlead
    have hends : '\n' ∉ lead.toList ∧ lead.toList.getLast? = some ' ' := by
      revert lead
      decide
    exact tidy_trimmed_append_iff hends.1 hends.2 filter
  unfold lifecycle
  split
  · split <;> simp [hlead]
  · simp [hlead]
  · simp [hlead]
  · simp [hlead]

theorem FilterType.newline_not_mem_stampLead (type : FilterType) (filter : String) :
    '\n' ∉ (type.stampLead filter).toList := by
  unfold stampLead
  split
  next h => simp [newline_not_mem_of_isNumeric h.2]
  next => decide

section
variable {config : Config} {n : Nat}

theorem Pass.tidy_parts_iff {pass : Pass} {f : Filter} {rf : RenderedFilter}
    (h : pass.run config (.standard n) f = .ok rf) :
    (∀ part ∈ rf.parts (.standard n), Tidy (trimmed part)) ↔
      ∀ text, (pass.scope config (.standard n)).Copies pass.type f.terms text → Tidy (trimmed text) := by
  obtain ⟨-, -, hname, -, hterms⟩ := run_eq_ok_iff.mp h
  obtain ⟨-, hrenders, hcollected⟩ := Scope.terms_eq_ok_iff.mp hterms
  have hgroups : (∀ line ∈ rf.groups.lines, Tidy (trimmed line)) ↔ ∀ t ∈ (pass.scope config (.standard n)).kept
      pass.type f.terms, pass.type = .objectGroup → ∀ g, .addresses g ∈ t.groups config.platform →
        Tidy (trimmed (" " ++ g.token)) := by
    rw [rf.groups.tidy_lines_iff, hcollected]
    refine ⟨fun hall t ht htype g hg => ?_, fun hall token htoken => ?_⟩
    · exact hall _ (ObjectGroups.mem_tokens_collect_iff.mpr ⟨htype, t, ht, g, hg, rfl⟩)
    · obtain ⟨htype, t, ht, g, hg, rfl⟩ := ObjectGroups.mem_tokens_collect_iff.mp htoken
      exact hall t ht htype g hg
  have hlifecycle : (∀ line ∈ rf.type.lifecycle rf.name, Tidy (trimmed line)) ↔ Tidy (trimmed (" " ++ pass.name)) := by
    rw [rf.type.tidy_lifecycle_iff, hname]
  have hstamp : ∀ line ∈ (Services.standard n).stamp (rf.type.stampLead rf.name) false false, Tidy (trimmed line) := by
    intro line hline
    rw [List.mem_singleton.mp hline]
    apply tidy_trimmed
    simp [FilterType.newline_not_mem_stampLead]
  have hcomments : ∀ line ∈ (rf.header.comments.flatMap Text.lines).map (" remark " ++ ·), Tidy (trimmed line) := by
    intro line hline
    obtain ⟨line', hline', rfl⟩ := List.mem_map.mp hline
    obtain ⟨comment, -, hmem⟩ := List.mem_flatMap.mp hline'
    apply tidy_trimmed
    simp [newline_not_mem_lines hmem]
  have hremark : Tidy (trimmed (" remark Filter type is " ++ rf.type.name)) := by cases rf.type <;> decide
  have hlines : (∀ line ∈ rf.terms.flatMap (·.lines), Tidy (trimmed line)) ↔
      ∀ t ∈ (pass.scope config (.standard n)).kept pass.type f.terms,
        ∀ text, (pass.scope config (.standard n)).Shows pass.type t text → Tidy (trimmed text) := by
    rw [List.forall_mem_flatMap]
    refine (forall_mem_congr_of_forall₂ hrenders fun t rt hrt => ?_).symm
    obtain ⟨why, hrendered⟩ := hrt.lines
    exact (Scope.tidy_rendered_iff rfl hrendered).symm
  have hends : ∀ line ∈ ["", "exit", ""], Tidy (trimmed line) := by decide
  unfold RenderedFilter.parts
  simp only [List.forall_mem_append, hgroups, hlifecycle, hlines, List.forall_mem_singleton,
    and_iff_left hstamp, and_iff_left hcomments, and_iff_left hremark, and_iff_left hends]
  constructor
  · intro ⟨⟨hgroup, hfilter⟩, hterm⟩ text htext
    cases htext with
    | filter => exact hfilter
    | term ht h => exact hterm _ ht text h
    | group htype ht hg => exact hgroup _ ht htype _ hg
  · intro hall
    exact ⟨⟨fun t ht htype g hg => hall _ (.group htype ht hg), hall _ .filter⟩,
      fun t ht text h => hall text (.term ht h)⟩

theorem tidy_assemble_iff {services : Services} {rfs : List RenderedFilter} :
    Tidy (assemble services rfs) ↔ ∀ rf ∈ rfs, ∀ part ∈ rf.parts services, Tidy (trimmed part) := by
  rw [assemble, tidy_intercalate_iff, List.forall_mem_map, List.forall_mem_flatMap]

/-- The lines of a configuration end in no blanks if and only if no line of what is copied into it does, each text
trimmed as a whole: names of filters, of terms and of groups, which stand behind a space, and verbatim text. -/
theorem tidy_output_iff {p : Policy} {rfs : List RenderedFilter}
    (h : (p.compile config (.standard n)).outcome = .ok rfs) :
    Tidy (assemble (.standard n) rfs) ↔
      ∀ f ∈ p.filtersFor config.platform, ∀ passes, f.header.passes config = .ok passes → ∀ pass ∈ passes,
        ∀ text, (pass.scope config (.standard n)).Copies pass.type f.terms text → Tidy (trimmed text) := by
  rw [tidy_assemble_iff]
  refine ⟨fun hall f hf passes hpasses pass hpass => ?_, fun hall rf hrf => ?_⟩
  · obtain ⟨passes', hpasses', hrun⟩ := exists_of_compileFilters h hf
    rw [hpasses] at hpasses'
    cases hpasses'
    obtain ⟨rf, hrf, hpass'⟩ := hrun pass hpass
    exact (Pass.tidy_parts_iff hpass').mp (hall rf hrf)
  · obtain ⟨f, hf, passes, hpasses, pass, hpass, hrun⟩ := mem_compileFilters h hrf
    exact (Pass.tidy_parts_iff hrun).mpr (hall f hf passes hpasses pass hpass)

end

def rawPolicy (text : String) : Policy where
  filters := [{
    header := { targets := [{ platform := "cisco", options := ["edge"] }] }
    terms := [{ name := "raw", verbatims := [⟨"cisco", text⟩] }] }]

def rawFilter (text : String) : RenderedFilter where
  header := { targets := [{ platform := "cisco", options := ["edge"] }] }
  name := "edge"
  type := .extended
  terms := [⟨"raw", ["", " remark raw", text]⟩]
  groups := { filter := "edge" }

theorem rawPolicy_copies {text copied : String} {f : Filter} {passes : List Pass} {pass : Pass}
    (hf : f ∈ (rawPolicy text).filtersFor "cisco") (hpasses : f.header.passes ⟨{}, .greatest⟩ = .ok passes)
    (hpass : pass ∈ passes) (h : (pass.scope ⟨{}, .greatest⟩ (.standard 100)).Copies pass.type f.terms copied) :
    copied = " edge" ∨ copied = " raw" ∨ copied = text := by
  cases List.mem_singleton.mp (List.mem_filter.mp hf).1
  have hedge : Header.passes ⟨{}, .greatest⟩ { targets := [{ platform := "cisco", options := ["edge"] }] } =
      .ok [⟨.extended, "edge"⟩] := by decide +kernel
  cases hedge.symm.trans hpasses
  cases List.mem_singleton.mp hpass
  cases h with
  | filter => exact .inl rfl
  | term ht h =>
    have hprepare : (Scope.prepare ⟨"edge", ⟨{}, .greatest⟩, .standard 100⟩ .extended
        { name := "raw", verbatims := [⟨"cisco", text⟩] }).outcome =
          .ok (some { name := "raw", verbatims := [⟨"cisco", text⟩] }) := by
      have hshort : (Services.standard 100).truncateName "raw" = "raw" := by decide
      rw [Scope.outcome_prepare, hshort]
      rfl
    have hkept := @Scope.kept_cons _ _ _ [] _ hprepare
    cases List.mem_singleton.mp (hkept ▸ ht)
    cases h with
    | name => exact .inr (.inl rfl)
    | verbatim hs h => exact .inr (.inr (List.mem_singleton.mp h))
  | group htype => cases htype

/-- The blanks after the last line of verbatim text are trimmed. -/
theorem rawPolicy_tidy :
    ((rawPolicy " permit ip any any\n deny ip any any ").compile ⟨{}, .greatest⟩ (.standard 100)).outcome =
        .ok [rawFilter " permit ip any any\n deny ip any any "] ∧
      Tidy (assemble (.standard 100) [rawFilter " permit ip any any\n deny ip any any "]) ∧
      Tidy (trimmed " permit ip any any\n deny ip any any ") := by
  let text := " permit ip any any\n deny ip any any "
  have hcompile : ((rawPolicy text).compile ⟨{}, .greatest⟩ (.standard 100)).outcome = .ok [rawFilter text] := by
    decide +kernel
  have htext : Tidy (trimmed text) := by decide
  refine ⟨hcompile, (tidy_output_iff hcompile).mpr fun f hf passes hpasses pass hpass copied hcopied => ?_, htext⟩
  obtain rfl | rfl | rfl := rawPolicy_copies hf hpasses hpass hcopied
  · decide
  · decide
  · exact htext

/-- The blank after the first line of verbatim text stays. -/
theorem rawPolicy_untidy :
    ((rawPolicy " permit ip any any \n deny ip any any").compile ⟨{}, .greatest⟩ (.standard 100)).outcome =
        .ok [rawFilter " permit ip any any \n deny ip any any"] ∧
      ¬Tidy (assemble (.standard 100) [rawFilter " permit ip any any \n deny ip any any"]) := by
  refine ⟨by decide +kernel, fun htidy => ?_⟩
  have htext := tidy_assemble_iff.mp htidy _ (List.mem_singleton_self _) " permit ip any any \n deny ip any any"
    (by simp [RenderedFilter.parts, rawFilter])
  exact absurd htext (by decide)

end AccessList
