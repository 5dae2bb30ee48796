import AccessList.Proofs.Net.AddressClause
import AccessList.Proofs.PortRange

/-!
# The definitions of groups

A definition has a line that gives the name of a group, a line for each member or one for the ports, and an end. In the
lines of a block a name is defined as often as its heading stands there, for no other line looks like one.
-/

namespace AccessList

inductive GroupName
  | addresses (token : String)
  | ports (text : String)
deriving DecidableEq

namespace GroupName

def heading : GroupName → String
  | addresses token => "object-group ip address " ++ token
  | ports text => "object-group ip port " ++ text

theorem heading_addresses (token : String) :
    (addresses token).heading = "object-group ip " ++ ("address " ++ token) := by
  have hlead : "object-group ip address " = "object-group ip " ++ "address " := by decide +kernel
  rw [← String.append_assoc, ← hlead]
  rfl

theorem heading_ports (text : String) : (ports text).heading = "object-group ip " ++ ("port " ++ text) := by
  have hlead : "object-group ip port " = "object-group ip " ++ "port " := by decide +kernel
  rw [← String.append_assoc, ← hlead]
  rfl

theorem heading_addresses_ne_ports (token text : String) : (addresses token).heading ≠ (ports text).heading := by
  intro h
  rw [heading_addresses, heading_ports, String.append_right_inj] at h
  have hhead := congrArg (·.toList.head?) h
  simp at hhead

theorem heading_inj {m n : GroupName} (h : m.heading = n.heading) : m = n := by
  cases m with
  | addresses token =>
    cases n with
    | addresses token' => rw [(String.append_right_inj _).mp h]
    | ports text => exact absurd h (heading_addresses_ne_ports token text)
  | ports text =>
    cases n with
    | addresses token => exact absurd h.symm (heading_addresses_ne_ports token text)
    | ports text' => rw [(String.append_right_inj _).mp h]

theorem head?_heading (n : GroupName) : n.heading.toList.head? = some 'o' := by
  cases n with
  | addresses token => rw [heading_addresses]; simp
  | ports text => rw [heading_ports]; simp

end GroupName

/-! ## Definitions -/

namespace GroupDefinition

def name : GroupDefinition → GroupName
  | addresses g => .addresses g.token
  | ports r => .ports r.text

def addressGroup? : GroupDefinition → Option AddressGroup
  | addresses g => some g
  | ports _ => none

theorem sameName_iff (d e : GroupDefinition) : d.sameName e = true ↔ d.name = e.name := by
  cases d with
  | addresses g => cases e <;> simp [sameName, name]
  | ports r =>
    cases e with
    | addresses g => simp [sameName, name]
    | ports r' =>
      simp only [sameName, name, beq_iff_eq, GroupName.ports.injEq]
      exact ⟨congrArg _, PortRange.text_inj⟩

inductive Spells : GroupDefinition → List String → Prop
  | addresses {g : AddressGroup} {members : List String} (h : List.Forall₂ MaskedNetwork.Denotes members g.members) :
    Spells (.addresses g) (("object-group ip address " ++ g.token) :: members ++ ["exit", ""])
  | port (p : Port) :
    Spells (.ports (.single p))
      ["object-group ip port " ++ (toString p.val ++ "-" ++ toString p.val), " eq " ++ toString p.val, "exit", ""]
  | range {low high : Port} (h : low ≠ high) :
    Spells (.ports ⟨low, high⟩)
      ["object-group ip port " ++ (toString low.val ++ "-" ++ toString high.val),
        " range " ++ toString low.val ++ " " ++ toString high.val, "exit", ""]

theorem spells_lines (d : GroupDefinition) : d.Spells d.lines := by
  cases d with
  | addresses g =>
    refine .addresses ?_
    rw [List.forall₂_map_left_iff]
    exact List.forall₂_same.mpr fun p _ => denotes_member p
  | ports r =>
    obtain ⟨low, high⟩ := r
    by_cases h : low = high
    · subst h
      have hlines : lines (.ports ⟨low, low⟩) =
          ["object-group ip port " ++ (toString low.val ++ "-" ++ toString low.val), " eq " ++ toString low.val, "exit",
            ""] := by
        simp [lines, PortRange.text, PortRange.isSingle]
      rw [hlines]
      exact .port low
    · have hlines : lines (.ports ⟨low, high⟩) =
          ["object-group ip port " ++ (toString low.val ++ "-" ++ toString high.val),
            " range " ++ toString low.val ++ " " ++ toString high.val, "exit", ""] := by
        simp [lines, PortRange.text, PortRange.isSingle, h]
      rw [hlines]
      exact .range h

/-- A definition opens with its heading, and no other line of it starts like one. -/
theorem lines_eq (d : GroupDefinition) :
    ∃ body, d.lines = d.name.heading :: body ∧ ∀ line ∈ body, line.toList.head? ≠ some 'o' := by
  cases d with
  | addresses g =>
    refine ⟨_, rfl, ?_⟩
    intro line hline
    rcases List.mem_append.mp hline with hline | hline
    · obtain ⟨p, -, rfl⟩ := List.mem_map.mp hline
      simp
    · rcases List.mem_cons.mp hline with rfl | hline
      · decide
      · rw [List.mem_singleton.mp hline]; decide
  | ports r =>
    refine ⟨_, rfl, ?_⟩
    intro line hline
    simp only [List.mem_cons, List.not_mem_nil, or_false] at hline
    rcases hline with rfl | rfl | rfl
    · by_cases hs : r.isSingle = true
      · simp [hs]
      · simp [hs]
    · decide
    · decide

variable {write : String → String}

/-- Writing the lines another way adds no headings as long as it leaves the start of a line. -/
theorem count_map_lines (hwrite : ∀ line, (write line).toList.head? = some 'o' → line.toList.head? = some 'o')
    (d : GroupDefinition) (n : GroupName) :
    (d.lines.map write).count n.heading = if write d.name.heading = n.heading then 1 else 0 := by
  obtain ⟨body, hlines, hbody⟩ := d.lines_eq
  have hnone : n.heading ∉ body.map write := by
    intro h
    obtain ⟨line, hline, heq⟩ := List.mem_map.mp h
    exact hbody line hline (hwrite line (heq ▸ n.head?_heading))
  rw [hlines, List.map_cons, List.count_cons, List.count_eq_zero.mpr hnone]
  by_cases hn : write d.name.heading = n.heading
  · simp [hn]
  · simp [hn]

end GroupDefinition

/-! ## Blocks -/

namespace ObjectGroups

def lookup (gs : ObjectGroups) (name : GroupName) : List GroupDefinition := gs.definitions.filter (·.name = name)

theorem any_sameName_iff (gs : ObjectGroups) (d : GroupDefinition) :
    gs.definitions.any (·.sameName d) = true ↔ gs.lookup d.name ≠ [] := by
  simp only [List.any_eq_true, GroupDefinition.sameName_iff, lookup, ne_eq, List.filter_eq_nil_iff,
    decide_eq_true_eq, not_forall, not_not, exists_prop]

theorem lookup_define (gs : ObjectGroups) (d : GroupDefinition) (name : GroupName) :
    (gs.define d).lookup name = if gs.lookup name = [] ∧ d.name = name then [d] else gs.lookup name := by
  unfold define
  by_cases hd : gs.definitions.any (·.sameName d) = true
  · rw [if_pos hd, if_neg]
    rintro ⟨hnil, rfl⟩
    exact (any_sameName_iff gs d).mp hd hnil
  · have hnil : gs.lookup d.name = [] := Classical.byContradiction fun h => hd ((any_sameName_iff gs d).mpr h)
    rw [if_neg hd]
    unfold lookup at *
    rw [List.filter_append]
    by_cases hn : d.name = name
    · subst hn
      simp [hnil]
    · simp [hn]

/-- The first definition of a name stays. -/
theorem lookup_foldl_define (ds : List GroupDefinition) (gs : ObjectGroups) (name : GroupName) :
    (ds.foldl define gs).lookup name =
      if gs.lookup name = [] then (ds.find? (·.name = name)).toList else gs.lookup name := by
  induction ds generalizing gs with
  | nil => by_cases hnil : gs.lookup name = [] <;> simp [hnil]
  | cons d ds ih =>
    rw [List.foldl_cons, ih, lookup_define, List.find?_cons]
    by_cases hnil : gs.lookup name = []
    · by_cases hn : d.name = name
      · simp [hnil, hn]
      · simp [hnil, hn]
    · simp [hnil]

theorem lines_eq (gs : ObjectGroups) :
    gs.lines = (if gs.definitions = [] then [] else [""]) ++ gs.definitions.flatMap (·.lines) := by
  unfold lines isValid
  by_cases h : gs.definitions = []
  · simp [h]
  · simp [h]

theorem count_map_lines {write : String → String}
    (hwrite : ∀ line, (write line).toList.head? = some 'o' → line.toList.head? = some 'o') (gs : ObjectGroups)
    (n : GroupName) :
    (gs.lines.map write).count n.heading = gs.definitions.countP fun d => write d.name.heading = n.heading := by
  have hempty : ((if gs.definitions = [] then [] else [""]).map write).count n.heading = 0 := by
    rw [List.count_eq_zero]
    intro h
    obtain ⟨line, hline, heq⟩ := List.mem_map.mp h
    have hhead := hwrite line (heq ▸ n.head?_heading)
    by_cases hd : gs.definitions = []
    · simp [hd] at hline
    · rw [if_neg hd, List.mem_singleton] at hline
      rw [hline] at hhead
      cases hhead
  rw [lines_eq, List.map_append, List.count_append, hempty, Nat.zero_add]
  induction gs.definitions with
  | nil => rfl
  | cons d ds ih =>
    rw [List.flatMap_cons, List.map_append, List.count_append, ih, GroupDefinition.count_map_lines hwrite,
      List.countP_cons, Nat.add_comm]
    simp

theorem count_heading_lines (gs : ObjectGroups) (n : GroupName) :
    gs.lines.count n.heading = (gs.lookup n).length := by
  have hcount := @count_map_lines id (fun _ h => h) gs n
  rw [List.map_id] at hcount
  rw [hcount, lookup, List.countP_eq_length_filter]
  refine congrArg List.length (List.filter_congr fun d _ => ?_)
  rw [decide_eq_decide]
  exact ⟨GroupName.heading_inj, fun h => h ▸ rfl⟩

/-- The lines of a block are those of its definitions, one after another. -/
theorem exists_blocks (gs : ObjectGroups) :
    ∃ blocks, List.Forall₂ GroupDefinition.Spells gs.definitions blocks ∧
      gs.lines = (if gs.definitions = [] then [] else [""]) ++ blocks.flatten := by
  refine ⟨gs.definitions.map (·.lines), ?_, ?_⟩
  · rw [List.forall₂_map_right_iff]
    exact List.forall₂_same.mpr fun d _ => d.spells_lines
  · rw [lines_eq, List.flatMap_def]

end ObjectGroups

end AccessList
