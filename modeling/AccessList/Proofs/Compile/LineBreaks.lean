import AccessList.Proofs.Compile.TrailingBlanks
import AccessList.Proofs.Rule.GroupMeaning

/-!
# Texts that break lines

A term comes to texts that are to be lines of the configuration, one each. Rules, comments and owners are free of
newlines whatever the fields of the term hold. Its name is copied with the newlines in it, and what stands behind one is
a line of its own that is no remark.
-/

namespace AccessList

open Text

/-! ## Texts and lines of a configuration -/

theorem Text.lines_intercalate {parts : List String} (hne : parts ≠ []) :
    lines ("\n".intercalate parts) = parts.flatMap lines := by
  induction parts with
  | nil => exact absurd rfl hne
  | cons part parts ih =>
    cases parts with
    | nil => simp
    | cons part' parts =>
      rw [String.intercalate_cons_cons, lines_append_newline, ih (List.cons_ne_nil _ _), ← List.flatMap_cons]

theorem lines_trimmed {s : String} (h : '\n' ∉ s.toList) : lines (trimmed s) = [trimmed s] := by
  apply lines_of_no_newline
  rw [toList_trimmed]
  have hsub : trimEnd s.toList ⊆ s.toList := List.IsPrefix.subset <| trimEnd_prefix _
  exact fun hc => h (hsub hc)

def printed (parts : List String) : List String := parts.flatMap fun part => lines (trimmed part)

theorem printed_append (ps qs : List String) : printed (ps ++ qs) = printed ps ++ printed qs := List.flatMap_append ..

theorem printed_of_no_newline {parts : List String} (h : ∀ part ∈ parts, '\n' ∉ part.toList) :
    printed parts = parts.map trimmed := by
  induction parts with
  | nil => rfl
  | cons part parts ih =>
    obtain ⟨hpart, hparts⟩ := List.forall_mem_cons.mp h
    rw [printed, List.flatMap_cons, lines_trimmed hpart, List.map_cons, ← ih hparts]
    rfl

section
variable {services : Services} {rfs : List RenderedFilter} {rf : RenderedFilter} {rt : RenderedTerm}

theorem RenderedFilter.parts_ne_nil (rf : RenderedFilter) (services : Services) : rf.parts services ≠ [] :=
  List.append_ne_nil_of_right_ne_nil _ (List.cons_ne_nil _ _)

theorem lines_assemble (hrf : rf ∈ rfs) :
    lines (assemble services rfs) = printed (rfs.flatMap (·.parts services)) := by
  have hne : (rfs.flatMap (·.parts services)).map trimmed ≠ [] := by
    rw [ne_eq, List.map_eq_nil_iff, List.flatMap_eq_nil_iff]
    exact fun h => rf.parts_ne_nil services (h rf hrf)
  rw [assemble, lines_intercalate hne, printed, List.flatMap_map]

/-- The texts of a term stand together among those of a configuration that it is in. -/
theorem lines_infix_parts (hrf : rf ∈ rfs) (hrt : rt ∈ rf.terms) : rt.lines <:+: rfs.flatMap (·.parts services) := by
  have hterms : rt.lines <:+: rf.terms.flatMap (·.lines) := List.infix_of_mem_flatten (List.mem_map_of_mem hrt)
  have hfilters : rf.parts services <:+: rfs.flatMap (·.parts services) :=
    List.infix_of_mem_flatten (List.mem_map_of_mem hrf)
  exact (hterms.trans (List.infix_append ..)).trans hfilters

end

/-! ## One term -/

namespace Scope

variable {s : Scope} {type : FilterType} {t : Term}

def WrapsToLines (s : Scope) (type : FilterType) (t : Term) : Prop :=
  type = .standard ∨ type = .objectGroup → ∀ line ∈ s.wrapped t, '\n' ∉ line.toList

theorem wrapsToLines_of_stock (hwrap : s.services.wrapComment = Text.wrap) : s.WrapsToLines type t := fun _ =>
  newline_not_mem_wrapped hwrap

theorem unbroken_remarks_iff {lead : String} {texts : List String} (hlead : '\n' ∉ lead.toList) :
    (∀ line ∈ texts.map (lead ++ ·), '\n' ∉ line.toList) ↔ ∀ text ∈ texts, '\n' ∉ text.toList := by
  simp [hlead]

theorem unbroken_standardRemarks_iff : (∀ line ∈ s.standardRemarks t, '\n' ∉ line.toList) ↔
    '\n' ∉ t.name.toList ∧ s.WrapsToLines .standard t := by
  rw [standardRemarks, unbroken_remarks_iff (by simp [newline_not_mem_lead]), List.forall_mem_cons]
  simp [WrapsToLines]

theorem unbroken_groupRemarks_iff : (∀ line ∈ s.groupRemarks t, '\n' ∉ line.toList) ↔
    '\n' ∉ t.name.toList ∧ s.WrapsToLines .objectGroup t := by
  rw [groupRemarks, List.forall_mem_cons, unbroken_remarks_iff (by decide), List.forall_mem_cons]
  simp [WrapsToLines]

theorem unbroken_extendedRemarks_iff : (∀ line ∈ s.extendedRemarks t, '\n' ∉ line.toList) ↔ '\n' ∉ t.name.toList := by
  obtain ⟨rest, hrest, hremarks⟩ := exists_extendedRemarks s t
  rw [hremarks, List.forall_mem_cons, unbroken_remarks_iff (by decide), List.forall_mem_cons, and_iff_left hrest]
  exact and_iff_right (by decide)

/-- The rules of a term break no line, so it depends on the remarks. -/
theorem Lays.unbroken_iff {ρ : Type} {write : ρ → String} {remarks : List String} {rendering : Rendering ρ}
    (h : s.Lays t remarks rendering) (hv : t.verbatims = []) (hwrite : ∀ r, '\n' ∉ (write r).toList)
    (hne : rendering.lines write ≠ []) :
    (∀ line ∈ rendering.lines write, '\n' ∉ line.toList) ↔ ∀ line ∈ remarks, '\n' ∉ line.toList := by
  cases h with
  | suppressed why => exact absurd rfl hne
  | verbatim hv' => exact absurd hv hv'
  | rules _ rs =>
    have hrules : ∀ line ∈ rs.map write, '\n' ∉ line.toList := by
      intro line hline
      obtain ⟨r, -, rfl⟩ := List.mem_map.mp hline
      exact hwrite r
    rw [Rendering.lines, List.forall_mem_append, and_iff_left hrules]

theorem unbroken_iff_of_lines {why : Option Suppression} {ls : List String} (hv : t.verbatims = [])
    (h : s.rendered type t = .ok (why, ls)) (hne : ls ≠ []) :
    (∀ line ∈ ls, '\n' ∉ line.toList) ↔ '\n' ∉ t.name.toList ∧ s.WrapsToLines type t := by
  cases type with
  | standard =>
    obtain ⟨rendering, hok, heq⟩ := map_eq_ok_iff.mp h
    cases heq
    rw [(lays_standard hok).unbroken_iff hv (StandardRule.newline_not_mem_text s.filter) hne, if_pos hv,
      unbroken_standardRemarks_iff]
  | objectGroup =>
    obtain ⟨rendering, hok, heq⟩ := map_eq_ok_iff.mp h
    cases heq
    rw [(lays_objectGroup hok).unbroken_iff hv GroupRule.newline_not_mem_text hne, unbroken_groupRemarks_iff]
  | extended | inet6 =>
    obtain ⟨rendering, hok, heq⟩ := map_eq_ok_iff.mp h
    cases heq
    rw [(lays_extended hok).unbroken_iff hv (ExtendedRule.newline_not_mem_text _) hne, unbroken_extendedRemarks_iff]
    simp [WrapsToLines]

/-- No text of a term without verbatim text has a newline if and only if the name of the term has none or the term is
left out, comments being wrapped to lines, as the stock services do. Then each text is one line of every configuration
that the term is in. -/
theorem rendered_unbroken_iff {why : Option Suppression} {ls : List String} (hv : t.verbatims = [])
    (h : s.rendered type t = .ok (why, ls)) :
    ((∀ line ∈ ls, '\n' ∉ line.toList) ↔
        s.Suppresses type t ∨ '\n' ∉ t.name.toList ∧ s.WrapsToLines type t) ∧
      (s.services.wrapComment = Text.wrap → s.WrapsToLines type t) ∧
      ((∀ line ∈ ls, '\n' ∉ line.toList) → ∀ services rfs, ∀ rf ∈ rfs, ∀ rt ∈ rf.terms, rt.lines = ls →
        ∃ before after, rfs.flatMap (·.parts services) = before ++ ls ++ after ∧
          lines (assemble services rfs) = printed before ++ ls.map trimmed ++ printed after) := by
  have hnil := rendered_eq_nil_iff h
  refine ⟨?_, wrapsToLines_of_stock, fun hls services rfs rf hrf rt hrt hlines => ?_⟩
  · by_cases hs : s.Suppresses type t
    · rw [hnil.mpr hs]
      exact iff_of_true (List.forall_mem_nil _) (.inl hs)
    · rw [unbroken_iff_of_lines hv h (mt hnil.mp hs)]
      exact (or_iff_right hs).symm
  · have hinfix : rt.lines <:+: rfs.flatMap (·.parts services) := lines_infix_parts hrf hrt
    rw [hlines] at hinfix
    obtain ⟨before, after, hparts⟩ := hinfix
    refine ⟨before, after, hparts.symm, ?_⟩
    rw [lines_assemble hrf, ← hparts, printed_append, printed_append, printed_of_no_newline hls]

/-- A term with a newline in every field that its rules and its remarks come from, its name apart. -/
def brokenTerm : Term where
  name := "office"
  actions := [.accept]
  protocols := ["tcp\npermit"]
  sources := [{ corp with token := some "CORP\n permit" }]
  owner := some "network\n permit"
  comments := ["Branches\n permit"]

def brokenTermLines : List String :=
  ["", " remark office", " remark Branches", " remark permit",
    " permit tcp permit addrgroup CORP permit addrgroup ANY"]

theorem brokenTerm_unbroken :
    brokenTerm.verbatims = [] ∧ plain.rendered .objectGroup brokenTerm = .ok (none, brokenTermLines) ∧
      ∀ line ∈ brokenTermLines, '\n' ∉ line.toList := by
  have h : plain.rendered .objectGroup brokenTerm = .ok (none, brokenTermLines) := by decide +kernel
  obtain ⟨hiff, hwrap, -⟩ := rendered_unbroken_iff rfl h
  exact ⟨rfl, h, hiff.mpr (.inr ⟨by decide, hwrap rfl⟩)⟩

def smuggledTerm : Term where
  name := "office\n permit ip any any"
  actions := [.deny]

def smuggledPolicy : Policy where
  filters := [{
    header := { targets := [{ platform := "cisco", options := ["edge"] }] }
    terms := [smuggledTerm] }]

def smuggledFilter : RenderedFilter where
  header := { targets := [{ platform := "cisco", options := ["edge"] }] }
  name := "edge"
  type := .extended
  terms := [⟨smuggledTerm.name, ["", " remark office\n permit ip any any", " deny ip any any"]⟩]
  groups := { filter := "edge" }

/-- One of the texts is not one line, and the configuration permits all traffic ahead of the only rule of the term. -/
theorem smuggledTerm_breaks :
    smuggledTerm.verbatims = [] ∧
      plain.rendered .extended smuggledTerm =
        .ok (none, ["", " remark office\n permit ip any any", " deny ip any any"]) ∧
      (¬∀ line ∈ ["", " remark office\n permit ip any any", " deny ip any any"], '\n' ∉ line.toList) ∧
      (smuggledPolicy.compile ⟨{}, .greatest⟩ (.standard 100)).outcome = .ok [smuggledFilter] ∧
      [" remark office", " permit ip any any", " deny ip any any"] <:+:
        lines (assemble (.standard 100) [smuggledFilter]) := by
  refine ⟨rfl, by decide +kernel, by decide, by decide +kernel, ?_⟩
  exact ⟨["no ip access-list extended edge", "ip access-list extended edge", "remark $Id:$",
    " remark Filter type is extended", ""], ["", "exit", ""], by decide +kernel⟩

end Scope

end AccessList
