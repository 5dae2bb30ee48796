import AccessList.Proofs.Rule.GroupCollection
import AccessList.Proofs.Text.Spacing

/-!
# The names of groups in the text of a filter

A rule line writes the name of an address group as words with one space between any two, while the line that defines
the group keeps the blanks of the name. So a rule line finds its groups where every name stands once among the names
as they are defined.
-/

namespace AccessList

open Text

/-! ## Rule lines -/

def GroupName.written : GroupName → GroupName
  | addresses token => addresses (neat token)
  | ports text => ports text

theorem GroupRule.trimmed_text (r : GroupRule) : trimmed r.text = r.parts.line := by
  rw [← r.text_eq_line]
  exact trimmed_ruleText _

/-! ## Lines that open a definition -/

theorem head?_append {s t : String} {c : Char} (h : s.toList.head? = some c) : (s ++ t).toList.head? = some c := by
  rw [String.toList_append, List.head?_append, h]
  rfl

theorem GroupRule.head?_line (r : GroupRule) : r.parts.line.toList.head? = some ' ' := by
  have hkeyword : (spaced r.action.keyword).toList.head? = some ' ' := by
    cases r.action <;> decide +kernel
  exact head?_append hkeyword

theorem head?_of_trimmed {line : String} {c : Char} (h : (trimmed line).toList.head? = some c) :
    line.toList.head? = some c := by
  rw [toList_trimmed] at h
  obtain ⟨tail, heq⟩ := trimEnd_prefix line.toList
  rw [← heq, List.head?_append, h]
  rfl

theorem heading_not_mem_trimmed {lines : List String} (h : ∀ line ∈ lines, line.toList.head? ≠ some 'o')
    (n : GroupName) : n.heading ∉ lines.map trimmed := by
  intro hn
  obtain ⟨line, hline, heq⟩ := List.mem_map.mp hn
  exact h line hline (head?_of_trimmed (heq ▸ n.head?_heading))

namespace GroupName

variable {token m : String}

theorem heading_ne_blank (n : GroupName) : n.heading ≠ "object-group ip address" := by
  have hlead : "object-group ip address" = "object-group ip " ++ "address" := by decide +kernel
  rw [hlead]
  cases n with
  | addresses token =>
    have hspace : "address " = "address" ++ " " := by decide +kernel
    have hempty : "address" = "address" ++ "" := by decide +kernel
    rw [heading_addresses, ne_eq, String.append_right_inj, hspace, String.append_assoc]
    intro h
    have hblank : " " ++ token = "" := (String.append_right_inj "address").mp (h.trans hempty)
    have hhead := congrArg (·.toList.head?) hblank
    simp at hhead
  | ports text =>
    rw [heading_ports, ne_eq, String.append_right_inj]
    intro h
    have hhead := congrArg (·.toList.head?) h
    simp at hhead

theorem trimmed_heading_of_blank (h : trimmed token = "") :
    trimmed (addresses token).heading = "object-group ip address" := by
  have hlead : trimmed "object-group ip address " = "object-group ip address" := by decide +kernel
  exact (trimmed_append_of_blank _ h).trans hlead

theorem trimmed_heading_addresses (h : trimmed token ≠ "") :
    trimmed (addresses token).heading = (addresses (trimmed token)).heading :=
  trimmed_append _ h

theorem trimmed_heading_ports (r : PortRange) : trimmed (ports r.text).heading = (ports r.text).heading := by
  have hne : trimmed r.text ≠ "" := by
    rw [AccessList.trimmed_text]
    exact r.text_ne_empty
  have happend : trimmed (ports r.text).heading = "object-group ip port " ++ trimmed r.text := trimmed_append _ hne
  rw [happend, AccessList.trimmed_text]
  rfl

/-- A blank name leaves its definition without a name. -/
theorem trimmed_heading_eq_addresses_iff :
    trimmed (addresses token).heading = (addresses m).heading ↔ m ≠ "" ∧ trimmed token = m := by
  by_cases h : trimmed token = ""
  · have hblank : trimmed (addresses token).heading ≠ (addresses m).heading := by
      rw [trimmed_heading_of_blank h]
      exact (heading_ne_blank _).symm
    constructor
    · intro heq
      exact absurd heq hblank
    · intro ⟨hne, heq⟩
      exact absurd (heq.symm.trans h) hne
  · rw [trimmed_heading_addresses h]
    constructor
    · intro heq
      have hm : trimmed token = m := addresses.inj (heading_inj heq)
      exact ⟨hm ▸ h, hm⟩
    · intro ⟨_, heq⟩
      rw [heq]

theorem trimmed_heading_ports_ne_addresses (r : PortRange) (m : String) :
    trimmed (ports r.text).heading ≠ (addresses m).heading := by
  rw [trimmed_heading_ports]
  exact (heading_addresses_ne_ports m r.text).symm

theorem trimmed_heading_addresses_ne_ports (token text : String) :
    trimmed (addresses token).heading ≠ (ports text).heading := by
  by_cases h : trimmed token = ""
  · rw [trimmed_heading_of_blank h]
    exact (heading_ne_blank _).symm
  · rw [trimmed_heading_addresses h]
    exact heading_addresses_ne_ports _ _

end GroupName

/-! ## The definitions of a filter -/

namespace ObjectGroups

def tokens (gs : ObjectGroups) : List String := (gs.definitions.filterMap (·.addressGroup?)).map (·.token)

theorem count_addresses (gs : ObjectGroups) (m : String) :
    (gs.lines.map trimmed).count (GroupName.addresses m).heading =
      if m = "" then 0 else (gs.tokens.map trimmed).count m := by
  rw [count_map_lines fun _ => head?_of_trimmed]
  unfold tokens
  induction gs.definitions with
  | nil => simp
  | cons d ds ih =>
    rw [List.countP_cons, ih]
    cases d with
    | addresses g =>
      have hname : trimmed (GroupDefinition.addresses g).name.heading = (GroupName.addresses m).heading ↔
          m ≠ "" ∧ trimmed g.token = m :=
        GroupName.trimmed_heading_eq_addresses_iff
      by_cases hm : m = ""
      · subst hm
        simp [hname]
      · simp [hname, hm, GroupDefinition.addressGroup?, List.count_cons]
    | ports r =>
      have hname : trimmed (GroupDefinition.ports r).name.heading ≠ (GroupName.addresses m).heading :=
        GroupName.trimmed_heading_ports_ne_addresses r m
      simp [hname, GroupDefinition.addressGroup?]

theorem count_ports (gs : ObjectGroups) (r : PortRange) :
    (gs.lines.map trimmed).count (GroupName.ports r.text).heading = (gs.lookup (.ports r.text)).length := by
  rw [count_map_lines fun _ => head?_of_trimmed, lookup, List.countP_eq_length_filter]
  refine congrArg List.length (List.filter_congr fun d _ => ?_)
  rw [decide_eq_decide]
  cases d with
  | addresses g =>
    constructor
    · intro h
      exact absurd h (GroupName.trimmed_heading_addresses_ne_ports g.token r.text)
    · intro h
      cases h
  | ports r' =>
    have hname : trimmed (GroupDefinition.ports r').name.heading = (GroupName.ports r'.text).heading :=
      GroupName.trimmed_heading_ports r'
    rw [hname]
    exact ⟨GroupName.heading_inj, fun h => h ▸ rfl⟩

/-- Every name, written with one space between words, stands once among the names without the blanks at their ends. -/
def Legible (gs : ObjectGroups) : Prop :=
  ∀ token ∈ gs.tokens, neat token ≠ "" ∧ (gs.tokens.map trimmed).count (neat token) = 1

instance (gs : ObjectGroups) : Decidable gs.Legible := inferInstanceAs (Decidable (∀ _ ∈ _, _))

theorem mem_tokens_iff {gs : ObjectGroups} {token : String} : token ∈ gs.tokens ↔ gs.lookup (.addresses token) ≠ [] := by
  unfold tokens lookup
  simp only [List.mem_map, List.mem_filterMap, ne_eq, List.filter_eq_nil_iff, decide_eq_true_eq, not_forall, not_not]
  constructor
  · intro ⟨g, ⟨d, hd, hg⟩, htoken⟩
    cases d with
    | addresses g' => cases hg; exact ⟨_, hd, congrArg _ htoken⟩
    | ports r => cases hg
  · intro ⟨d, hd, hname⟩
    cases d with
    | addresses g => exact ⟨g, ⟨_, hd, rfl⟩, GroupName.addresses.inj hname⟩
    | ports r => cases hname

end ObjectGroups

namespace Scope

variable {s : Scope} {ts : List Term}

def FindsNames (s : Scope) (ts : List Term) (gs : ObjectGroups) : Prop :=
  ∀ r, s.Writes ts r → ∀ n ∈ r.names, (gs.lines.map trimmed).count n.written.heading = 1

theorem findsNames_iff (hok : ∀ t ∈ ts, ∃ rendering, s.objectGroup t = .ok rendering) :
    s.FindsNames ts (s.collected ts) ↔ (s.collected ts).Legible := by
  constructor
  · intro h token htoken
    -- What is defined is there for some rule.
    have huses : s.Uses ts (.addresses token) := by
      apply Classical.byContradiction; intro hnot
      exact ObjectGroups.mem_tokens_iff.mp htoken ((lookup_collected hok _).2 hnot)
    obtain ⟨r, hr, hn⟩ := huses
    have hcount : _ = 1 := h r hr _ hn
    rw [GroupName.written, ObjectGroups.count_addresses] at hcount
    by_cases hneat : neat token = ""
    · simp [hneat] at hcount
    · rw [if_neg hneat] at hcount
      exact ⟨hneat, hcount⟩
  · intro h r hr n hn
    obtain ⟨d, hlookup⟩ := (lookup_collected hok n).1 ⟨r, hr, hn⟩
    cases n with
    | addresses token =>
      have htoken : token ∈ (s.collected ts).tokens := by
        rw [ObjectGroups.mem_tokens_iff, hlookup]
        exact List.cons_ne_nil _ _
      obtain ⟨hneat, hcount⟩ := h token htoken
      rw [GroupName.written, ObjectGroups.count_addresses, if_neg hneat]
      exact hcount
    | ports text =>
      rcases List.mem_cons.mp hn with hn | hn
      · cases hn
      rcases List.mem_cons.mp hn with hn | hn
      · cases hn
      obtain ⟨range, -, hrange⟩ := List.mem_map.mp hn
      cases hrange
      rw [GroupName.written, ObjectGroups.count_ports, hlookup]
      rfl

end Scope

/-! ## The text of a filter -/

def RenderedFilter.below (services : Services) (f : RenderedFilter) : List String :=
  f.type.lifecycle f.name ++ services.stamp (f.type.stampLead f.name) false false ++
    (f.header.comments.flatMap Text.lines).map (" remark " ++ ·) ++ [" remark Filter type is " ++ f.type.name] ++
    f.terms.flatMap (·.lines) ++ ["", "exit", ""]

theorem RenderedFilter.parts_eq (services : Services) (f : RenderedFilter) :
    f.parts services = f.groups.lines ++ f.below services := by
  simp only [parts, below, List.append_assoc]

namespace Scope

variable {s : Scope} {ts : List Term}

theorem mem_lines_objectGroup {t : Term} {rendering : Rendering GroupRule} (h : s.objectGroup t = .ok rendering)
    {line : String} (hline : line ∈ rendering.lines GroupRule.text) :
    line ∈ s.groupRemarks t ∨ line ∈ t.verbatimFor s.platform ∨ ∃ r ∈ rendering.rules, line = r.text := by
  cases objectGroup_eq_iff.mp h with
  | otherPlatform | noGroup => cases hline
  | verbatim =>
    rcases List.mem_append.mp hline with hline | hline
    · exact .inl hline
    · exact .inr (.inl hline)
  | rules =>
    rcases List.mem_append.mp hline with hline | hline
    · exact .inl hline
    · obtain ⟨r, hr, hrule⟩ := List.mem_map.mp hline
      exact .inr (.inr ⟨r, hr, hrule.symm⟩)

theorem heading_mem_term {t : Term} {rendering : Rendering GroupRule} (h : s.objectGroup t = .ok rendering)
    {n : GroupName} (hn : n.heading ∈ (rendering.lines GroupRule.text).map trimmed) :
    n.heading ∈ (t.verbatimFor s.platform).map trimmed := by
  obtain ⟨line, hline, heq⟩ := List.mem_map.mp hn
  have hhead : (trimmed line).toList.head? = some 'o' := heq ▸ n.head?_heading
  rcases mem_lines_objectGroup h hline with hline | hline | ⟨r, -, rfl⟩
  · have hremarks : ∀ line ∈ s.groupRemarks t, line.toList.head? ≠ some 'o' := by
      intro line hline
      rcases List.mem_cons.mp hline with rfl | hline
      · decide
      · obtain ⟨comment, -, rfl⟩ := List.mem_map.mp hline
        rw [@head?_append " remark " comment ' ' (by decide +kernel)]
        decide
    exact absurd (head?_of_trimmed hhead) (hremarks line hline)
  · exact heq ▸ List.mem_map_of_mem hline
  · rw [r.trimmed_text, r.head?_line] at hhead
    cases hhead

def Lines (s : Scope) (t : Term) (rt : RenderedTerm) : Prop :=
  ∃ rendering, s.objectGroup t = .ok rendering ∧ rt.lines = rendering.lines GroupRule.text

/-- The lines of a filter below its groups hold the rules of its terms, and open no definition unless as text that is
taken as it is. -/
structure Prints (s : Scope) (ts : List Term) (rf : RenderedFilter) : Prop where
  terms : List.Forall₂ s.Lines ts rf.terms
  rules : ∀ r, s.Writes ts r → r.parts.line ∈ (rf.below s.services).map trimmed
  foreign : ∀ n : GroupName, n.heading ∈ (rf.below s.services).map trimmed →
    n.heading ∈ (s.services.stamp (rf.type.stampLead rf.name) false false).map trimmed ∨
      ∃ t ∈ ts, n.heading ∈ (t.verbatimFor s.platform).map trimmed

theorem prints {rf : RenderedFilter} (htype : rf.type = .objectGroup) (hterms : List.Forall₂ s.Lines ts rf.terms) :
    s.Prints ts rf := by
  refine ⟨hterms, ?_, ?_⟩
  · intro r ⟨t, ht, rendering, h, hr⟩
    obtain ⟨rt, hrt, rendering', h', hlines⟩ := exists_of_forall₂ hterms t ht
    rw [h] at h'
    cases h'
    have hline : r.text ∈ rf.terms.flatMap (·.lines) :=
      List.mem_flatMap.mpr ⟨rt, hrt, hlines ▸ Rendering.mem_lines hr⟩
    rw [← r.trimmed_text]
    refine List.mem_map_of_mem ?_
    unfold RenderedFilter.below
    exact List.mem_append_left _ (List.mem_append_right _ hline)
  · intro n hn
    have hlead : ∀ (lead name : String) (c : Char), lead.toList.head? = some c → c ≠ 'o' →
        (lead ++ name).toList.head? ≠ some 'o' := by
      intro lead name c h hc
      rw [head?_append h]
      simpa using hc
    unfold RenderedFilter.below at hn
    simp only [List.map_append, List.mem_append] at hn
    rcases hn with ((((hn | hn) | hn) | hn) | hn) | hn
    · refine absurd hn (heading_not_mem_trimmed ?_ n)
      rw [htype]
      intro line hline
      rcases List.mem_cons.mp hline with rfl | hline
      · exact hlead _ _ 'n' (by decide +kernel) (by decide)
      · rw [List.mem_singleton.mp hline]
        exact hlead _ _ 'i' (by decide +kernel) (by decide)
    · exact .inl hn
    · refine absurd hn (heading_not_mem_trimmed ?_ n)
      intro line hline
      obtain ⟨comment, -, rfl⟩ := List.mem_map.mp hline
      exact hlead _ _ ' ' (by decide +kernel) (by decide)
    · refine absurd hn (heading_not_mem_trimmed ?_ n)
      intro line hline
      rw [List.mem_singleton.mp hline]
      exact hlead _ _ ' ' (by decide +kernel) (by decide)
    · obtain ⟨line, hline, heq⟩ := List.mem_map.mp hn
      obtain ⟨rt, hrt, hline⟩ := List.mem_flatMap.mp hline
      have hflip : List.Forall₂ (fun rt t => s.Lines t rt) rf.terms ts := hterms.flip
      obtain ⟨t, ht, rendering, h, hlines⟩ := exists_of_forall₂ hflip rt hrt
      rw [hlines] at hline
      exact .inr ⟨t, ht, heading_mem_term h (heq ▸ List.mem_map_of_mem hline)⟩
    · refine absurd hn (heading_not_mem_trimmed ?_ n)
      decide

theorem prints_of_terms {rf : RenderedFilter} (htype : rf.type = .objectGroup)
    (h : (s.terms .objectGroup { filter := s.filter } ts).outcome = .ok (rf.terms, rf.groups)) :
    s.Prints (s.kept .objectGroup ts) rf ∧
      (s.FindsNames (s.kept .objectGroup ts) rf.groups ↔ rf.groups.Legible) := by
  obtain ⟨-, hrenders, hgroups⟩ := terms_eq_ok_iff.mp h
  have hterms : List.Forall₂ s.Lines (s.kept .objectGroup ts) rf.terms := by
    refine hrenders.imp fun t rt hrender => ?_
    obtain ⟨why, hlines⟩ := hrender.lines
    obtain ⟨rendering, hok, -, hlines⟩ := rendered_objectGroup_eq_ok_iff.mp hlines
    exact ⟨rendering, hok, hlines⟩
  refine ⟨prints htype hterms, ?_⟩
  have hcollected : rf.groups = s.collected (s.kept .objectGroup ts) := hgroups
  rw [hcollected]
  refine findsNames_iff fun t ht => ?_
  obtain ⟨rt, -, rendering, hok, -⟩ := exists_of_forall₂ hterms t ht
  exact ⟨rendering, hok⟩

end Scope

/-- In the text of a policy, the rule lines of an object-group filter find the names that they write among the
definitions above them if and only if the names are legible. -/
theorem rendered_names_found_iff {config : Config} {services : Services} {p : Policy} {text : String}
    (h : renderPolicy config services p = .ok text) :
    ∃ rfs, (p.compile config services).outcome = .ok rfs ∧
      text = "\n".intercalate (rfs.flatMap fun rf =>
        rf.groups.lines.map trimmed ++ (rf.below services).map trimmed) ∧
      ∀ rf ∈ rfs, rf.type = .objectGroup → ∃ f ∈ p.filtersFor config.platform, ∃ (s : Scope) (ts : List Term),
        s = ⟨rf.name, config, services⟩ ∧ ts = s.kept .objectGroup f.terms ∧ s.Prints ts rf ∧
          (s.FindsNames ts rf.groups ↔ rf.groups.Legible) := by
  unfold renderPolicy at h
  cases hcompile : (p.compile config services).outcome with
  | error e => rw [hcompile] at h; cases h
  | ok rfs =>
    rw [hcompile] at h
    cases h
    refine ⟨rfs, rfl, ?_, ?_⟩
    · rw [assemble, List.map_flatMap]
      simp only [RenderedFilter.parts_eq, List.map_append]
    · intro rf hrf htype
      obtain ⟨f, hf, -, hterms⟩ := mem_compile hcompile hrf
      rw [htype] at hterms
      exact ⟨f, hf, ⟨rf.name, config, services⟩, _, rfl, rfl, Scope.prints_of_terms htype hterms⟩

def serverTerm (token : String) : Term where
  name := "web"
  actions := [.accept]
  destinations := [{ Scope.corp with token := some token }]

def serverPolicy (token : String) : Policy where
  filters := [{
    header := { targets := [{ platform := "cisco", options := ["og", "object-group"] }] }
    terms := [serverTerm token] }]

def serverFilter (token : String) : RenderedFilter where
  header := { targets := [{ platform := "cisco", options := ["og", "object-group"] }] }
  name := "og"
  type := .objectGroup
  terms := [⟨"web", ["", " remark web", " permit ip addrgroup ANY addrgroup WEB SRV"]⟩]
  groups := {
    filter := "og"
    definitions := [.addresses .any, .addresses ⟨token, [Scope.corp.block]⟩] }

def serverLines (name : String) : List String :=
  ["", "object-group ip address ANY", " 0.0.0.0 0.0.0.0", "exit", "", "object-group ip address " ++ name,
    " 10.0.0.0 255.0.0.0", "exit", "", "no ip access-list extended og", "ip access-list extended og",
    "remark $Id:$", " remark Filter type is object-group", "", " remark web",
    " permit ip addrgroup ANY addrgroup WEB SRV", "", "exit", ""]

theorem renderPolicy_server {token name : String}
    (hcompile : ((serverPolicy token).compile ⟨{}, .greatest⟩ .plain).outcome = .ok [serverFilter token])
    (hlines : ((serverFilter token).parts .plain).map trimmed = serverLines name) :
    renderPolicy ⟨{}, .greatest⟩ .plain (serverPolicy token) = .ok ("\n".intercalate (serverLines name)) := by
  unfold renderPolicy
  rw [hcompile, ← hlines]
  simp [Except.map, assemble]

/-- A blank at the end of a name does no harm. -/
theorem trailingBlank_names_found :
    renderPolicy ⟨{}, .greatest⟩ .plain (serverPolicy "WEB SRV ") = .ok ("\n".intercalate (serverLines "WEB SRV")) ∧
      ∃ f ∈ (serverPolicy "WEB SRV ").filters, ∃ (s : Scope) (ts : List Term),
        s = ⟨"og", ⟨{}, .greatest⟩, .plain⟩ ∧ ts = s.kept .objectGroup f.terms ∧
          s.Prints ts (serverFilter "WEB SRV ") ∧ s.FindsNames ts (serverFilter "WEB SRV ").groups := by
  have hcompile : ((serverPolicy "WEB SRV ").compile ⟨{}, .greatest⟩ .plain).outcome =
      .ok [serverFilter "WEB SRV "] := by decide +kernel
  have htext := @renderPolicy_server _ "WEB SRV" hcompile (by decide +kernel)
  obtain ⟨rfs, hrfs, -, h⟩ := rendered_names_found_iff htext
  rw [hcompile] at hrfs
  cases hrfs
  obtain ⟨f, hf, s, ts, hs, hts, hprints, hiff⟩ := h _ (List.mem_singleton_self _) rfl
  have hlegible : (serverFilter "WEB SRV ").groups.Legible := by decide +kernel
  exact ⟨htext, f, List.mem_of_mem_filter hf, s, ts, hs, hts, hprints, hiff.mpr hlegible⟩

/-- Two blanks within a name become one in the rule, and no group goes by the name that the rule writes. -/
theorem doubleBlank_name_lost :
    renderPolicy ⟨{}, .greatest⟩ .plain (serverPolicy "WEB  SRV") =
        .ok ("\n".intercalate (serverLines "WEB  SRV")) ∧
      ((serverPolicy "WEB  SRV").compile ⟨{}, .greatest⟩ .plain).outcome = .ok [serverFilter "WEB  SRV"] ∧
      ∃ r, Scope.Writes ⟨"og", ⟨{}, .greatest⟩, .plain⟩ [serverTerm "WEB  SRV"] r ∧
        r.parts.line = " permit ip addrgroup ANY addrgroup WEB SRV" ∧
        (GroupName.addresses "WEB  SRV") ∈ r.names ∧
        (GroupName.addresses "WEB  SRV").written.heading = "object-group ip address WEB SRV" ∧
        ((serverFilter "WEB  SRV").groups.lines.map trimmed).count "object-group ip address WEB SRV" = 0 := by
  have hsource : (serverTerm "WEB  SRV").addressGroup? .source = some .any := rfl
  have hdestination : (serverTerm "WEB  SRV").addressGroup? .destination = some ⟨"WEB  SRV", [Scope.corp.block]⟩ := by
    decide +kernel
  have hrules : Scope.objectGroup ⟨"og", ⟨{}, .greatest⟩, .plain⟩ (serverTerm "WEB  SRV") =
      .ok (.block ["", " remark web"] (.rules [⟨.accept, "ip", "ANY", none, "WEB  SRV", none, []⟩])) :=
    Scope.objectGroup_eq_iff.mpr (.rules (by decide) rfl hsource hdestination rfl)
  have hcompile : ((serverPolicy "WEB  SRV").compile ⟨{}, .greatest⟩ .plain).outcome =
      .ok [serverFilter "WEB  SRV"] := by decide +kernel
  refine ⟨renderPolicy_server hcompile (by decide +kernel), hcompile, _,
    ⟨_, List.mem_singleton_self _, _, hrules, List.mem_singleton_self _⟩, ?_, ?_, ?_, ?_⟩
  all_goals decide +kernel

end AccessList
