import AccessList.Proofs.Rule.GroupLookup

/-!
# The groups of a filter are those that its rules name

Groups are collected from the terms and rules are written from them, one apart from the other. Both leave out the same
terms. So a name is defined once if some rule has it and not at all otherwise, and definitions stand in the order in
which the terms first refer to them.
-/

namespace AccessList

/-! ## Definitions -/

namespace GroupDefinition

def firsts (ds : List GroupDefinition) : List GroupDefinition := ds.eraseDupsBy fun d e => d.name == e.name

theorem firsts_cons (d : GroupDefinition) (ds : List GroupDefinition) :
    firsts (d :: ds) = d :: firsts (ds.filter fun e => e.name ≠ d.name) := by
  unfold firsts
  rw [List.eraseDupsBy_cons]
  simp

end GroupDefinition

namespace ObjectGroups

/-- A run of definitions adds the first of every name that is not there yet. -/
theorem definitions_foldl_define (ds : List GroupDefinition) (gs : ObjectGroups) :
    (ds.foldl define gs).definitions =
      gs.definitions ++ GroupDefinition.firsts (ds.filter fun d => gs.lookup d.name = []) := by
  induction ds generalizing gs with
  | nil => simp [GroupDefinition.firsts]
  | cons d ds ih =>
    rw [List.foldl_cons, ih]
    by_cases hd : gs.lookup d.name = []
    · have hany : ¬gs.definitions.any (·.sameName d) = true := fun h => (any_sameName_iff gs d).mp h hd
      have hdefine : (gs.define d).definitions = gs.definitions ++ [d] := by rw [define, if_neg hany]
      -- What is new after `d` is what was new before it and goes by another name.
      have hfilter : (ds.filter fun e => (gs.define d).lookup e.name = []) =
          (ds.filter fun e => gs.lookup e.name = []).filter fun e => e.name ≠ d.name := by
        rw [List.filter_filter]
        apply List.filter_congr; intro e _
        rw [lookup_define]
        by_cases he : gs.lookup e.name = [] <;> by_cases hn : d.name = e.name <;> simp [he, hn, eq_comm]
      rw [hdefine, hfilter, List.filter_cons_of_pos (by simpa using hd), GroupDefinition.firsts_cons]
      simp
    · have hany : gs.definitions.any (·.sameName d) = true := (any_sameName_iff gs d).mpr hd
      have hdefine : gs.define d = gs := by rw [define, if_pos hany]
      rw [hdefine, List.filter_cons_of_neg (by simpa using hd)]

end ObjectGroups

/-! ## The names that rules have -/

def GroupRule.names (r : GroupRule) : List GroupName :=
  .addresses r.source :: .addresses r.destination ::
    (r.sourcePorts.toList ++ r.destinationPorts.toList).map fun range => .ports range.text

theorem some_mem_portGroupChoices_iff {ports : List PortRange} {r : PortRange} :
    some r ∈ portGroupChoices ports ↔ r ∈ ports := by
  refine ⟨Term.mem_of_some_mem_portGroupChoices, fun h => ?_⟩
  unfold portGroupChoices
  rw [if_neg (by simp [List.ne_nil_of_mem h])]
  exact List.mem_map_of_mem h

namespace Term

variable {t : Term} {form : ProtocolForm} {action : Action} {source destination : AddressGroup}

theorem mem_names_groupRules_iff {n : GroupName} :
    (∃ r ∈ t.groupRules form action source destination, n ∈ r.names) ↔
      n ∈ (.addresses source :: .addresses destination :: (t.sourcePorts ++ t.destinationPorts).map .ports).map
        GroupDefinition.name := by
  have hports : n ∈ ((t.sourcePorts ++ t.destinationPorts).map .ports).map GroupDefinition.name ↔
      (∃ range ∈ t.sourcePorts, .ports range.text = n) ∨ ∃ range ∈ t.destinationPorts, .ports range.text = n := by
    simp [GroupDefinition.name]
  rw [List.map_cons, List.map_cons, List.mem_cons, List.mem_cons, hports]
  constructor
  · intro h
    obtain ⟨r, hr, hn⟩ := h
    obtain ⟨-, -, hs, hsp, hd, hdp, -⟩ := mem_groupRules_iff.mp hr
    rw [GroupRule.names, hs, hd] at hn
    rcases List.mem_cons.mp hn with hn | hn
    · exact .inl hn
    rcases List.mem_cons.mp hn with hn | hn
    · exact .inr (.inl hn)
    obtain ⟨range, hrange, hn⟩ := List.mem_map.mp hn
    rcases List.mem_append.mp hrange with hrange | hrange
    · rw [Option.mem_toList.mp hrange] at hsp
      exact .inr (.inr (.inl ⟨range, some_mem_portGroupChoices_iff.mp hsp, hn⟩))
    · rw [Option.mem_toList.mp hrange] at hdp
      exact .inr (.inr (.inr ⟨range, some_mem_portGroupChoices_iff.mp hdp, hn⟩))
  · intro hn
    obtain ⟨sp, hsp⟩ := List.exists_mem_of_ne_nil _ (portGroupChoices_ne_nil t.sourcePorts)
    obtain ⟨dp, hdp⟩ := List.exists_mem_of_ne_nil _ (portGroupChoices_ne_nil t.destinationPorts)
    rcases hn with rfl | rfl | ⟨range, hrange, rfl⟩ | ⟨range, hrange, rfl⟩
    · obtain ⟨r, hr, -⟩ := exists_mem_groupRules hsp hdp
      obtain ⟨-, -, hs, -⟩ := mem_groupRules_iff.mp hr
      exact ⟨r, hr, by simp [GroupRule.names, GroupDefinition.name, hs]⟩
    · obtain ⟨r, hr, -⟩ := exists_mem_groupRules hsp hdp
      obtain ⟨-, -, -, -, hd, -⟩ := mem_groupRules_iff.mp hr
      exact ⟨r, hr, by simp [GroupRule.names, GroupDefinition.name, hd]⟩
    · obtain ⟨r, hr, hsp, -⟩ := exists_mem_groupRules (some_mem_portGroupChoices_iff.mpr hrange) hdp
      exact ⟨r, hr, by simp [GroupRule.names, hsp]⟩
    · obtain ⟨r, hr, -, hdp⟩ := exists_mem_groupRules hsp (some_mem_portGroupChoices_iff.mpr hrange)
      exact ⟨r, hr, by simp [GroupRule.names, hdp]⟩

end Term

/-! ## One term in both -/

namespace Scope

variable {s : Scope} {t : Term}

def Writes (s : Scope) (ts : List Term) (r : GroupRule) : Prop :=
  ∃ t ∈ ts, ∃ rendering, s.objectGroup t = .ok rendering ∧ r ∈ rendering.rules

def Uses (s : Scope) (ts : List Term) (n : GroupName) : Prop := ∃ r, s.Writes ts r ∧ n ∈ r.names

theorem uses_iff {ts : List Term} (hok : ∀ t ∈ ts, ∃ rendering, s.objectGroup t = .ok rendering) {n : GroupName} :
    s.Uses ts n ↔ ∃ d ∈ ts.flatMap (·.groups s.platform), d.name = n := by
  have hterm : ∀ t rendering, s.objectGroup t = .ok rendering →
      ((∃ r ∈ rendering.rules, n ∈ r.names) ↔ ∃ d ∈ t.groups s.platform, d.name = n) := by
    intro t rendering h
    rcases objectGroup_eq_ok h with ⟨hrules, hgroups, -⟩ | ⟨_, _, _, -, -, -, -, -, hrules, hgroups⟩
    · simp [hrules, hgroups]
    · rw [hrules, hgroups, Term.mem_names_groupRules_iff, List.mem_map]
  constructor
  · intro ⟨r, ⟨t, ht, rendering, h, hr⟩, hn⟩
    obtain ⟨d, hd, hname⟩ := (hterm t rendering h).mp ⟨r, hr, hn⟩
    exact ⟨d, List.mem_flatMap.mpr ⟨t, ht, hd⟩, hname⟩
  · intro ⟨d, hd, hname⟩
    obtain ⟨t, ht, hd⟩ := List.mem_flatMap.mp hd
    obtain ⟨rendering, h⟩ := hok t ht
    obtain ⟨r, hr, hn⟩ := (hterm t rendering h).mpr ⟨d, hd, hname⟩
    exact ⟨r, ⟨t, ht, rendering, h, hr⟩, hn⟩

/-! ## A run of terms -/

def collected (s : Scope) (ts : List Term) : ObjectGroups :=
  ts.foldl (·.add · s.platform) { filter := s.filter }

/-- A name that rules have is defined once, any other is not. -/
theorem lookup_collected {ts : List Term} (hok : ∀ t ∈ ts, ∃ rendering, s.objectGroup t = .ok rendering)
    (n : GroupName) :
    (s.Uses ts n → ∃ d, (s.collected ts).lookup n = [d]) ∧ (¬s.Uses ts n → (s.collected ts).lookup n = []) := by
  have hlookup : (s.collected ts).lookup n = ((ts.flatMap (·.groups s.platform)).find? (·.name = n)).toList :=
    lookup_collect ts n
  rw [uses_iff hok, hlookup]
  cases hfind : (ts.flatMap (·.groups s.platform)).find? (·.name = n) with
  | none =>
    refine ⟨fun ⟨d, hd, hn⟩ => ?_, fun _ => rfl⟩
    exact absurd hn (by simpa using List.find?_eq_none.mp hfind d hd)
  | some first =>
    have hname := List.find?_some hfind
    refine ⟨fun _ => ⟨first, rfl⟩, fun hnone => ?_⟩
    exact absurd ⟨first, List.mem_of_find?_eq_some hfind, of_decide_eq_true hname⟩ hnone

theorem count_heading_collected {ts : List Term} (hok : ∀ t ∈ ts, ∃ rendering, s.objectGroup t = .ok rendering)
    (n : GroupName) :
    (s.Uses ts n → (s.collected ts).lines.count n.heading = 1) ∧
      (¬s.Uses ts n → n.heading ∉ (s.collected ts).lines) := by
  obtain ⟨hused, hunused⟩ := lookup_collected hok n
  constructor
  · intro huses
    obtain ⟨d, hd⟩ := hused huses
    rw [ObjectGroups.count_heading_lines, hd]
    rfl
  · intro huses
    rw [← List.count_eq_zero, ObjectGroups.count_heading_lines, hunused huses]
    rfl

theorem lines_objectGroup {rendering : Rendering GroupRule} (h : s.objectGroup t = .ok rendering) :
    (rendering.rules = [] → rendering.lines GroupRule.text = [] ∨
      rendering.lines GroupRule.text = s.groupRemarks t ++ t.verbatimFor s.platform) ∧
    (rendering.rules ≠ [] →
      rendering.lines GroupRule.text = s.groupRemarks t ++ rendering.rules.map (·.parts.line)) := by
  cases objectGroup_eq_iff.mp h with
  | otherPlatform | noGroup => exact ⟨fun _ => .inl rfl, absurd rfl⟩
  | verbatim => exact ⟨fun _ => .inr rfl, absurd rfl⟩
  | rules =>
    refine ⟨fun hnone => absurd hnone Term.groupRules_ne_nil, fun _ => ?_⟩
    exact congrArg (s.groupRemarks t ++ ·) (List.map_congr_left fun r _ => r.text_eq_line)

/-- The groups that are collected from terms are those of the terms with rule lines, the first of every name, each
written with its members or its ports. So the names that rule lines have are defined once, and no others are. -/
theorem collected_groups_exact (s : Scope) {ts : List Term} (ha : ∀ t ∈ ts, t.actions ≠ []) :
    (∀ t ∈ ts, ∃ rendering, s.objectGroup t = .ok rendering ∧
      (rendering.rules = [] ∧ t.groups s.platform = [] ∧
          (rendering.lines GroupRule.text = [] ∨
            rendering.lines GroupRule.text = s.groupRemarks t ++ t.verbatimFor s.platform) ∨
        rendering.rules ≠ [] ∧
          rendering.lines GroupRule.text = s.groupRemarks t ++ rendering.rules.map (·.parts.line) ∧
          ∃ source destination, t.addressGroup? .source = some source ∧
            t.addressGroup? .destination = some destination ∧
            (∀ r ∈ rendering.rules, r.source = source.token ∧ r.destination = destination.token) ∧
            t.groups s.platform =
              .addresses source :: .addresses destination :: (t.sourcePorts ++ t.destinationPorts).map .ports)) ∧
    (s.collected ts).definitions = GroupDefinition.firsts (ts.flatMap (·.groups s.platform)) ∧
    (∃ blocks, List.Forall₂ GroupDefinition.Spells (s.collected ts).definitions blocks ∧
      (s.collected ts).lines = (if (s.collected ts).definitions = [] then [] else [""]) ++ blocks.flatten) ∧
    ∀ n : GroupName, (s.Uses ts n → (s.collected ts).lines.count n.heading = 1) ∧
      (¬s.Uses ts n → n.heading ∉ (s.collected ts).lines) := by
  have hok : ∀ t ∈ ts, ∃ rendering, s.objectGroup t = .ok rendering := fun t ht => s.objectGroup_of_actions (ha t ht)
  refine ⟨?_, ?_, ObjectGroups.exists_blocks _, count_heading_collected hok⟩
  · intro t ht
    obtain ⟨rendering, h⟩ := hok t ht
    refine ⟨rendering, h, ?_⟩
    rcases objectGroup_eq_ok h with ⟨hrules, hgroups, -⟩ | ⟨_, source, destination, -, -, -, hs, hd, hrules, hgroups⟩
    · exact .inl ⟨hrules, hgroups, (lines_objectGroup h).1 hrules⟩
    · have hne : rendering.rules ≠ [] := hrules ▸ Term.groupRules_ne_nil
      refine .inr ⟨hne, (lines_objectGroup h).2 hne, source, destination, hs, hd, ?_, hgroups⟩
      intro r hr
      rw [hrules] at hr
      obtain ⟨-, -, hrs, -, hrd, -⟩ := Term.mem_groupRules_iff.mp hr
      exact ⟨hrs, hrd⟩
  · have hcollected : s.collected ts = _ := foldl_collect ts _
    rw [hcollected, ObjectGroups.definitions_foldl_define]
    simp [ObjectGroups.lookup]

/-- One token on both sides and one range for both ports, which it repeats. -/
def mirrorTerm : Term where
  name := "mirror"
  actions := [.accept]
  protocols := ["tcp"]
  sources := [corp]
  destinations := [corp]
  sourcePorts := [.single ⟨179, by decide⟩]
  destinationPorts := [.single ⟨179, by decide⟩, .single ⟨179, by decide⟩]

/-- Nothing is left of its source, so nothing names its token. -/
def emptyTerm : Term where
  name := "empty"
  actions := [.deny]
  sources := [{ corp with token := some "HOLE" }]
  sourceExcludes := [corp]

theorem mirrorTerm_groups_exact :
    (∀ t ∈ [mirrorTerm, emptyTerm, halfTerm], t.actions ≠ []) ∧
      (collected ⟨"og", ⟨{}, .greatest⟩, .plain⟩ [mirrorTerm, emptyTerm, halfTerm]).lines =
        ["", "object-group ip address CORP", " 10.0.0.0 255.0.0.0", "exit", "", "object-group ip port 179-179",
          " eq 179", "exit", "", "object-group ip address ANY", " 0.0.0.0 0.0.0.0", "exit", ""] ∧
      (collected ⟨"og", ⟨{}, .greatest⟩, .plain⟩ [mirrorTerm, emptyTerm, halfTerm]).lines.count
        "object-group ip address CORP" = 1 ∧
      (collected ⟨"og", ⟨{}, .greatest⟩, .plain⟩ [mirrorTerm, emptyTerm, halfTerm]).lines.count
        "object-group ip port 179-179" = 1 ∧
      "object-group ip address HOLE" ∉
        (collected ⟨"og", ⟨{}, .greatest⟩, .plain⟩ [mirrorTerm, emptyTerm, halfTerm]).lines := by
  have ha : ∀ t ∈ [mirrorTerm, emptyTerm, halfTerm], t.actions ≠ [] := by decide
  have huses := fun n => @uses_iff ⟨"og", ⟨{}, .greatest⟩, .plain⟩ _
    (fun t ht => objectGroup_of_actions _ (ha t ht)) n
  obtain ⟨-, -, -, h⟩ := collected_groups_exact ⟨"og", ⟨{}, .greatest⟩, .plain⟩ ha
  have hcorp := (h (.addresses "CORP")).1 ((huses _).mpr (by decide +kernel))
  have hbgp := (h (.ports "179-179")).1 ((huses _).mpr (by decide +kernel))
  have hhole := (h (.addresses "HOLE")).2 (mt (huses _).mp (by decide +kernel))
  exact ⟨ha, by decide +kernel, hcorp, hbgp, hhole⟩

end Scope

end AccessList
