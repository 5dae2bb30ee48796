import AccessList.Proofs.PortRange
import Mathlib.Data.List.Count
import Mathlib.Data.List.FinRange
import Mathlib.Data.List.Sort

/-!
# Pairs of ports

A list of ranges names ports in some order, and a port as often as there are ranges with it. Splitting pairs writes two
ports one by one and so keeps the order and the number of times. A list without pairs stays as it is.
-/

namespace AccessList.PortRange

/-- A range of two ports. The last port has no port behind it. -/
def IsPair (r : PortRange) : Prop := r.low.val + 1 = r.high.val

instance (r : PortRange) : Decidable r.IsPair := inferInstanceAs (Decidable (_ = _))

def ports (r : PortRange) : List Port := (List.finRange 65536).filter (· ∈ r)

section
variable {r : PortRange} {rs ss : List PortRange} {p : Port}

theorem mem_ports_iff : p ∈ r.ports ↔ p ∈ r := by simp [ports]

theorem ports_ascending (r : PortRange) : r.ports.Pairwise (· < ·) := (List.pairwise_lt_finRange _).filter _

/-- A range's ports are the one ascending list of them. -/
theorem ports_eq {ps : List Port} (hps : ps.Pairwise (· < ·)) (h : ∀ p, p ∈ ps ↔ p ∈ r) : r.ports = ps :=
  r.ports_ascending.eq_of_mem_iff hps fun p => mem_ports_iff.trans (h p).symm

theorem ports_single (p : Port) : (single p).ports = [p] :=
  ports_eq (List.pairwise_singleton _ p) fun q => List.mem_singleton.trans (mem_single_iff q p).symm

theorem IsPair.ports_eq (h : r.IsPair) : r.ports = [r.low, r.high] := by
  have hlt : r.low < r.high := Fin.lt_def.mpr (by unfold IsPair at h; omega)
  refine PortRange.ports_eq (by simpa using hlt) fun p => ?_
  rw [mem_pair_iff h, mem_single_iff, mem_single_iff]
  simp

theorem count_ports (r : PortRange) (p : Port) : r.ports.count p = if p ∈ r then 1 else 0 := by
  rw [r.ports_ascending.nodup.count]
  simp only [mem_ports_iff]

/-- A list names a port once for each of its ranges that hold it. -/
theorem count_flatMap_ports (rs : List PortRange) (p : Port) : (rs.flatMap ports).count p = rs.countP (p ∈ ·) := by
  induction rs with
  | nil => rfl
  | cons r rs ih =>
    rw [List.flatMap_cons, List.count_append, count_ports, ih, List.countP_cons, Nat.add_comm]
    simp only [decide_eq_true_eq]

/-! ## Splitting -/

theorem splitPairs_append (rs ss : List PortRange) : splitPairs (rs ++ ss) = splitPairs rs ++ splitPairs ss :=
  List.flatMap_append ..

theorem splitPairs_cons_pair (h : r.IsPair) (rs : List PortRange) :
    splitPairs (r :: rs) = single r.low :: single r.high :: splitPairs rs :=
  congrArg (· ++ splitPairs rs) (if_pos h)

theorem splitPairs_cons_of_not_pair (h : ¬r.IsPair) (rs : List PortRange) :
    splitPairs (r :: rs) = r :: splitPairs rs := congrArg (· ++ splitPairs rs) (if_neg h)

theorem not_isPair_single (p : Port) : ¬(single p).IsPair := Nat.succ_ne_self p.val

theorem flatMap_ports_splitPairs (rs : List PortRange) : (splitPairs rs).flatMap ports = rs.flatMap ports := by
  induction rs with
  | nil => rfl
  | cons r rs ih =>
    by_cases h : r.IsPair
    · rw [splitPairs_cons_pair h, List.flatMap_cons, List.flatMap_cons, List.flatMap_cons, ih, ports_single,
        ports_single, h.ports_eq]
      rfl
    · rw [splitPairs_cons_of_not_pair h, List.flatMap_cons, List.flatMap_cons, ih]

theorem not_isPair_of_mem_splitPairs (h : r ∈ splitPairs rs) : ¬r.IsPair := by
  induction rs with
  | nil => cases h
  | cons s rs ih =>
    by_cases hs : s.IsPair
    · rw [splitPairs_cons_pair hs, List.mem_cons, List.mem_cons] at h
      rcases h with rfl | rfl | h
      · exact not_isPair_single _
      · exact not_isPair_single _
      · exact ih h
    · rw [splitPairs_cons_of_not_pair hs, List.mem_cons] at h
      rcases h with rfl | h
      · exact hs
      · exact ih h

theorem splitPairs_eq_self (h : ∀ r ∈ rs, ¬r.IsPair) : splitPairs rs = rs := by
  induction rs with
  | nil => rfl
  | cons r rs ih =>
    obtain ⟨hr, hrs⟩ := List.forall_mem_cons.mp h
    rw [splitPairs_cons_of_not_pair hr, ih hrs]

/-- Splitting names the same ports in the same order, each as often as before. It leaves no pair and every other range
at its place, whatever its ends are, so that splitting again changes nothing. -/
theorem split_names_same_ports (rs : List PortRange) :
    (splitPairs rs).flatMap ports = rs.flatMap ports ∧
      (∀ p : Port, (splitPairs rs).countP (p ∈ ·) = rs.countP (p ∈ ·)) ∧
      (∀ r ∈ splitPairs rs, ¬r.IsPair) ∧
      (∀ front r back, rs = front ++ r :: back → ¬r.IsPair →
        splitPairs rs = splitPairs front ++ r :: splitPairs back) ∧
      splitPairs (splitPairs rs) = splitPairs rs := by
  have hnames := flatMap_ports_splitPairs rs
  refine ⟨hnames, fun p => ?_, fun r => not_isPair_of_mem_splitPairs, ?_,
    splitPairs_eq_self fun r => not_isPair_of_mem_splitPairs⟩
  · rw [← count_flatMap_ports, ← count_flatMap_ports, hnames]
  · rintro front r back rfl hr
    rw [splitPairs_append, splitPairs_cons_of_not_pair hr]

/-- The last two ports, the first two, and between them a range that would be a pair if ports went round. -/
theorem edgePorts_split :
    ¬IsPair ⟨65535, 0⟩ ∧
      splitPairs [⟨65534, 65535⟩, ⟨65535, 0⟩, ⟨0, 1⟩, ⟨8080, 8082⟩] =
        [single 65534, single 65535, ⟨65535, 0⟩, single 0, single 1, ⟨8080, 8082⟩] := by
  obtain ⟨-, -, -, hrest, -⟩ := split_names_same_ports [⟨65534, 65535⟩, ⟨65535, 0⟩, ⟨0, 1⟩, ⟨8080, 8082⟩]
  have hround : ¬IsPair ⟨65535, 0⟩ := by decide
  have hsplit := hrest [⟨65534, 65535⟩] ⟨65535, 0⟩ [⟨0, 1⟩, ⟨8080, 8082⟩] rfl hround
  exact ⟨hround, hsplit.trans (by decide)⟩

end

end AccessList.PortRange
