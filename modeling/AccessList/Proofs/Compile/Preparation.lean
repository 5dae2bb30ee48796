import AccessList.Proofs.Compile.Expiry
import AccessList.Proofs.PortRange
import AccessList.Proofs.Traversal

/-!
# Terms as the standard services prepare them

A term has its name cut and its ports opened. It is left out if it has expired, and refused if its ports are not to be
opened.
-/

namespace AccessList

namespace PortRange

def withHigh (rs : List PortRange) : List PortRange := collapse (rs ++ [ephemeral])

theorem ordered_append_ephemeral {rs : List PortRange} (h : ∀ r ∈ rs, r.low ≤ r.high) :
    ∀ r ∈ rs ++ [ephemeral], r.low ≤ r.high :=
  List.forall_mem_append.mpr ⟨h, List.forall_mem_singleton.mpr (by decide)⟩

end PortRange

namespace Term

variable {t t' : Term} {family : Family}

/-- What opening the ports of a term comes to, and when it is done. -/
theorem openHighPorts_eq_ok_iff : t.openHighPorts family = .ok t' ↔
    t.MayOpenPorts ∧
      t' = if t.wantsHighPorts then { t with destinationPorts := PortRange.withHigh t.destinationPorts } else t := by
  by_cases hopen : t.MayOpenPorts
  · simp only [hopen, true_and]
    unfold openHighPorts
    by_cases hw : t.wantsHighPorts = true
    · have hs : t.stateless family = [] := stateless_eq_nil_iff.mpr (hopen hw)
      simp [hw, hs, PortRange.withHigh, eq_comm]
    · simp [hw, eq_comm]
  · rw [openHighPorts_of_not_mayOpen hopen]
    exact iff_of_false nofun fun h => hopen h.1

theorem standard_prepare_iff {n : Nat} :
    (Services.standard n).prepare t family = .ok (some t') ↔ t.openHighPorts family = .ok t' := by
  have hprepare : (Services.standard n).prepare t family = (t.openHighPorts family).map some := rfl
  simp only [hprepare, map_eq_ok_iff, Option.some.injEq, exists_eq_right]

end Term

/-- What is rendered of a term is the term with its name cut and its ports opened, if it may have them opened and has
not expired. -/
theorem Scope.prepare_standard_iff {t t' : Term} {type : FilterType} {config : Config} {n : Nat} {name : String} :
    (Scope.prepare ⟨name, config, .standard n⟩ type t).outcome = .ok (some t') ↔
      { t with name := (Services.standard n).truncateName t.name }.openHighPorts type.family = .ok t' ∧
        t'.expiration.any config.isExpired = false := by
  rw [outcome_prepare, map_eq_ok_iff]
  constructor
  · rintro ⟨o, ho, hfilter⟩
    obtain ⟨rfl, hcurrent⟩ := Option.filter_eq_some_iff.mp hfilter
    exact ⟨Term.standard_prepare_iff.mp (mapError_eq_ok_iff.mp ho), by simpa using hcurrent⟩
  · rintro ⟨hopened, hcurrent⟩
    exact ⟨some t', mapError_eq_ok_iff.mpr (Term.standard_prepare_iff.mpr hopened),
      Option.filter_eq_some_iff.mpr ⟨rfl, by simpa using hcurrent⟩⟩

end AccessList
