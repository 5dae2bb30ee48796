import AccessList.Proofs.Net.Subtraction
import AccessList.Proofs.Net.Notation
import AccessList.Proofs.Rule.Outcome

/-!
# What standard rules match

The rules of a term match its IPv4 blocks. A list without IPv4 blocks comes to the same rule as no list at all,
one that matches every address, so the rules mean what the term declares unless all its blocks are IPv6.
-/

namespace AccessList

namespace Term

variable {t : Term} {action : Action}

def TakesAddress (t : Term) (x : Address) : Prop :=
  t.addresses = [] ∨ ∃ a ∈ t.addresses, a.family = .inet ∧ x ∈ a.block

instance (t : Term) (x : Address) : Decidable (t.TakesAddress x) := inferInstanceAs (Decidable (_ ∨ _))

theorem mem_standardRules_iff {r : StandardRule} :
    r ∈ t.standardRules action ↔
      r.action = action ∧ r.log = t.logging ∧
        (r.block = none ∧ Tagged.ofFamily .inet t.addresses = [] ∨
          ∃ a ∈ Tagged.ofFamily .inet t.addresses, r.block = some a.block) := by
  obtain ⟨action', block, log⟩ := r
  unfold standardRules
  cases h : Tagged.ofFamily .inet t.addresses with
  | nil =>
    simp only [List.mem_singleton, StandardRule.mk.injEq, and_true, List.not_mem_nil, false_and, exists_false,
      or_false]
    exact ⟨fun ⟨ha, hb, hl⟩ => ⟨ha, hl, hb⟩, fun ⟨ha, hl, hb⟩ => ⟨ha, hb, hl⟩⟩
  | cons a as =>
    simp only [List.mem_map, StandardRule.mk.injEq, reduceCtorEq, and_false, false_or]
    constructor
    · rintro ⟨b, hb, rfl, rfl, rfl⟩
      exact ⟨rfl, rfl, b, hb, rfl⟩
    · rintro ⟨rfl, rfl, b, hb, rfl⟩
      exact ⟨b, hb, rfl, rfl, rfl⟩

theorem standardRules_match_iff (t : Term) (action : Action) (x : Address) :
    (∃ r ∈ t.standardRules action, r.pattern.Matches x) ↔
      Tagged.ofFamily .inet t.addresses = [] ∨ ∃ a ∈ t.addresses, a.family = .inet ∧ x ∈ a.block := by
  constructor
  · rintro ⟨r, hr, hx⟩
    obtain ⟨-, -, ⟨-, hnil⟩ | ⟨a, ha, hb⟩⟩ := mem_standardRules_iff.mp hr
    · exact .inl hnil
    · obtain ⟨ha, haf⟩ := Tagged.mem_ofFamily.mp ha
      exact .inr ⟨a, ha, haf, (StandardRule.matches_block_iff hb x).mp hx⟩
  · rintro (hnil | ⟨a, ha, haf, hx⟩)
    · exact ⟨⟨action, none, t.logging⟩, mem_standardRules_iff.mpr ⟨rfl, rfl, .inl ⟨rfl, hnil⟩⟩, True.intro⟩
    · refine ⟨⟨action, some a.block, t.logging⟩, mem_standardRules_iff.mpr ⟨rfl, rfl, .inr ⟨a, ?_, rfl⟩⟩, ?_⟩
      · exact Tagged.mem_ofFamily.mpr ⟨ha, haf⟩
      · exact (StandardRule.matches_block_iff rfl x).mpr hx

end Term

namespace Scope

variable {s : Scope} {t : Term} {action : Action}

/-- The rules of a term match what the term declares if and only if it declares no addresses or some IPv4 block. -/
theorem standard_matches_declared_iff (hx : t.excludes s.platform = false) (hv : t.verbatims = [])
    (ha : t.action? = some action) :
    ∃ rs, s.standard t = .ok (.block (s.standardRemarks t) (.rules rs)) ∧
      (∀ r ∈ rs, r.text s.filter =
        StandardRule.lead s.filter ++ action.keyword ++ " " ++ r.pattern.text (Text.isNumeric s.filter) ++
          if t.logging then " log" else "") ∧
      ((∀ x, x.family = .inet → ((∃ r ∈ rs, r.pattern.Matches x) ↔ t.TakesAddress x)) ↔
        (t.addresses = [] ∨ ∃ a ∈ t.addresses, a.family = .inet)) := by
  refine ⟨t.standardRules action, standard_eq_iff.mpr (.rules hx hv ha), ?_, ?_⟩
  · intro r hr
    obtain ⟨hra, hrl, -⟩ := Term.mem_standardRules_iff.mp hr
    rw [StandardRule.text, StandardRule.blockText_eq, hra, hrl]
  · simp only [Term.standardRules_match_iff, Term.TakesAddress]
    constructor
    · intro h
      -- Without IPv4 blocks every address is matched, the zero address too.
      by_cases hnil : Tagged.ofFamily .inet t.addresses = []
      · rcases (h (.zero .inet) rfl).mp (.inl hnil) with hd | ⟨a, hmem, haf, -⟩
        · exact .inl hd
        · exact .inr ⟨a, hmem, haf⟩
      · obtain ⟨a, hmem⟩ := List.exists_mem_of_ne_nil _ hnil
        exact .inr ⟨a, Tagged.mem_ofFamily.mp hmem⟩
    · rintro (hd | ⟨a, hmem, haf⟩) x -
      · simp [hd, Tagged.ofFamily]
      · have hsome : Tagged.ofFamily .inet t.addresses ≠ [] :=
          List.ne_nil_of_mem (Tagged.mem_ofFamily.mpr ⟨hmem, haf⟩)
        simp [hsome, List.ne_nil_of_mem hmem]

def mixedTerm : Term where
  name := "mixed"
  actions := [.accept]
  addresses := [{ block := ⟨⟨.inet, 0x0A020000, by decide⟩, 16, by decide⟩ },
    { block := ⟨⟨.inet6, 0x20010DB8000000000000000000000000, by decide⟩, 32, by decide⟩ }]

theorem mixedTerm_matches_declared :
    mixedTerm.excludes "cisco" = false ∧ mixedTerm.verbatims = [] ∧ mixedTerm.action? = some .accept ∧
      ∃ rs, Scope.standard ⟨"10", ⟨{}, .greatest⟩, .plain⟩ mixedTerm =
          .ok (.block (Scope.standardRemarks ⟨"10", ⟨{}, .greatest⟩, .plain⟩ mixedTerm) (.rules rs)) ∧
        (∃ r ∈ rs, r.pattern.Matches ⟨.inet, 0x0A020304, by decide⟩) ∧
        ¬∃ r ∈ rs, r.pattern.Matches ⟨.inet, 0x0A030304, by decide⟩ := by
  obtain ⟨rs, h, -, hiff⟩ :=
    standard_matches_declared_iff (s := ⟨"10", ⟨{}, .greatest⟩, .plain⟩) (t := mixedTerm) (by decide) rfl rfl
  have hm := hiff.mpr (by decide)
  exact ⟨by decide, rfl, rfl, rs, h, (hm _ rfl).mpr (by decide), fun hx => absurd ((hm _ rfl).mp hx) (by decide)⟩

def v6Term : Term where
  name := "v6"
  actions := [.accept]
  addresses := [{ block := ⟨⟨.inet6, 0x20010DB8000000000000000000000000, by decide⟩, 32, by decide⟩ }]

/-- A list with IPv6 blocks only passes the check and permits 8.8.8.8, which it does not declare. -/
theorem v6Term_matches_undeclared :
    (Scope.checkStandard ⟨"10", ⟨{}, .greatest⟩, .plain⟩ v6Term).outcome = .ok () ∧
      ∃ remarks rs, Scope.standard ⟨"10", ⟨{}, .greatest⟩, .plain⟩ v6Term = .ok (.block remarks (.rules rs)) ∧
        (∃ r ∈ rs, r.action.keyword = "permit" ∧ r.text "10" = "access-list 10 permit any" ∧
          r.pattern.Matches ⟨.inet, 0x08080808, by decide⟩) ∧
        ¬v6Term.TakesAddress ⟨.inet, 0x08080808, by decide⟩ :=
  ⟨rfl, _, _, rfl, ⟨⟨.accept, none, false⟩, by decide, rfl, by decide, True.intro⟩, by decide⟩

end Scope

end AccessList
