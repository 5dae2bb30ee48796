import AccessList.Proofs.PortCollapse
import AccessList.Proofs.Rule.PortOrder

/-!
# Ports opened to answers

An option that starts with `established` opens the ports from 1024 on as destination ports of a term. The list of them
is collapsed as it is opened, so the ports are open afterwards and opening them again leaves the list as it is.
-/

namespace AccessList

namespace PortRange

theorem mem_ephemeral_iff (p : Port) : p ∈ ephemeral ↔ 1024 ≤ p.val := by
  have hlow : ephemeral.low.val = 1024 := rfl
  have hhigh : ephemeral.high.val = 65535 := rfl
  rw [mem_iff]
  omega

theorem covers_withHigh (rs : List PortRange) (p : Port) : Covers (withHigh rs) p ↔ Covers rs p ∨ 1024 ≤ p.val := by
  rw [withHigh, covers_collapse, covers_append, covers_cons, mem_ephemeral_iff]
  exact or_congr_right (or_iff_left not_covers_nil)

/-- The opened list is the separated list of its ports, and those are all there already. -/
theorem withHigh_withHigh {rs : List PortRange} (h : ∀ r ∈ rs, r.low ≤ r.high) :
    withHigh (withHigh rs) = withHigh rs := by
  have hopened : Separated (withHigh rs) := collapse_separated (ordered_append_ephemeral h)
  refine hopened.eq_collapse (ordered_append_ephemeral hopened.ordered) fun p => ?_
  rw [covers_append, covers_cons, mem_ephemeral_iff, covers_withHigh]
  simp only [not_covers_nil, or_false, or_assoc, or_self]

end PortRange

namespace Term

variable {t : Term}

/-- Opening ports changes the destination ports only, and only where an option asks for it. Then a port is open that was
open before or is high, and opening again, for whichever family, changes nothing. -/
theorem high_ports_opened (n : Nat) (family : Family) (hports : t.PortsOrdered) :
    ((∃ t', (Services.standard n).prepare t family = .ok (some t')) ↔ t.MayOpenPorts) ∧
    ∀ t', (Services.standard n).prepare t family = .ok (some t') →
      t' = { t with destinationPorts := t'.destinationPorts } ∧
      (t.wantsHighPorts = false → t' = t) ∧
      (t.wantsHighPorts = true → ∀ p : Port,
        PortRange.Covers t'.destinationPorts p ↔ PortRange.Covers t.destinationPorts p ∨ 1024 ≤ p.val) ∧
      ∀ family', (Services.standard n).prepare t' family' = .ok (some t') := by
  obtain ⟨-, hdestination⟩ := List.forall_mem_append.mp hports
  simp only [standard_prepare_iff]
  constructor
  · simp only [openHighPorts_eq_ok_iff, exists_and_left, exists_eq, and_true]
  intro t' h
  obtain ⟨hopen, ht'⟩ := openHighPorts_eq_ok_iff.mp h
  by_cases hw : t.wantsHighPorts = true
  · rw [if_pos hw] at ht'
    subst ht'
    refine ⟨rfl, ?_, ?_, fun family' => ?_⟩
    · rw [hw]
      exact nofun
    · intro _ p
      exact PortRange.covers_withHigh _ p
    · -- What is asked for and for which protocols is as before.
      refine openHighPorts_eq_ok_iff.mpr ⟨hopen, ?_⟩
      have hagain := PortRange.withHigh_withHigh hdestination
      let opened : Term := { t with destinationPorts := PortRange.withHigh t.destinationPorts }
      have hwants : opened.wantsHighPorts = true := hw
      rw [if_pos hwants, hagain]
  · rw [if_neg hw] at ht'
    subst ht'
    exact ⟨rfl, fun _ => rfl, fun hw' => absurd hw' hw, fun family' =>
      openHighPorts_eq_ok_iff.mpr ⟨hopen, (if_neg hw).symm⟩⟩

def proxyAnswers : Term where
  name := "proxy"
  actions := [.accept]
  protocols := ["tcp", "udp"]
  options := ["established"]
  destinationPorts := [⟨⟨3128, by decide⟩, ⟨3130, by decide⟩⟩, ⟨⟨1000, by decide⟩, ⟨1023, by decide⟩⟩,
    .single ⟨21, by decide⟩, ⟨⟨60000, by decide⟩, PortRange.ephemeral.high⟩]

def openedProxyAnswers : Term :=
  { proxyAnswers with destinationPorts := [.single ⟨21, by decide⟩, ⟨⟨1000, by decide⟩, PortRange.ephemeral.high⟩] }

theorem proxyAnswers_opened :
    proxyAnswers.PortsOrdered ∧
      (Services.standard 100).prepare proxyAnswers .inet = .ok (some openedProxyAnswers) ∧
      (Services.standard 100).prepare openedProxyAnswers .inet6 = .ok (some openedProxyAnswers) := by
  have hports : proxyAnswers.PortsOrdered := by
    unfold PortsOrdered
    decide
  have hseparated : PortRange.Separated openedProxyAnswers.destinationPorts := ⟨by decide, by decide⟩
  have hlist : PortRange.withHigh proxyAnswers.destinationPorts = openedProxyAnswers.destinationPorts := by
    refine hseparated.eq_collapse (by decide) fun p => ?_
    simp only [PortRange.covers_append, PortRange.covers_cons, PortRange.not_covers_nil, PortRange.mem_ephemeral_iff,
      proxyAnswers, openedProxyAnswers, or_false]
    have hhigh : PortRange.ephemeral.high.val = 65535 := rfl
    simp only [PortRange.mem_iff, PortRange.single, hhigh]
    omega
  have hopened : (Services.standard 100).prepare proxyAnswers .inet = .ok (some openedProxyAnswers) := by
    have hterm : openedProxyAnswers =
        { proxyAnswers with destinationPorts := openedProxyAnswers.destinationPorts } := rfl
    rw [hterm, ← hlist]
    exact standard_prepare_iff.mpr (openHighPorts_eq_ok_iff.mpr ⟨by decide, rfl⟩)
  obtain ⟨-, h⟩ := high_ports_opened 100 .inet hports
  obtain ⟨-, -, -, hagain⟩ := h _ hopened
  exact ⟨hports, hopened, hagain .inet6⟩

end Term

end AccessList
