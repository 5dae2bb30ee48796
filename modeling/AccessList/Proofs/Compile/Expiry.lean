import AccessList.Proofs.Compile.Insertion

/-!
# When an expired term is invisible

The ports of a term are opened before its expiration is looked at. So an expired term leaves no trace, unless it asks
for established connections of protocols that have none: then it ends the compilation as if it had not expired.
-/

namespace AccessList

namespace Term

variable {t t' : Term} {family : Family}

/-- Whether the ports of a term may be opened, if it asks for that: its protocols are TCP and UDP, by these names. -/
def MayOpenPorts (t : Term) : Prop :=
  t.wantsHighPorts = true → t.protocols ≠ [] ∧ ∀ p ∈ t.protocols, p = "tcp" ∨ p = "udp"

instance (t : Term) : Decidable t.MayOpenPorts := inferInstanceAs (Decidable (_ → _))

theorem stateless_eq_nil_iff :
    t.stateless family = [] ↔ t.protocols ≠ [] ∧ ∀ p ∈ t.protocols, p = "tcp" ∨ p = "udp" := by
  unfold stateless
  by_cases h : t.protocols = []
  · simp [h]
  · rw [if_neg (mt List.isEmpty_iff.mp h), List.filter_eq_nil_iff]
    simp only [ne_eq, h, not_false_eq_true, true_and]
    apply forall₂_congr; intro p _
    by_cases htcp : p = "tcp" <;> simp [htcp]

/-- Opening ports changes the destination ports only, and only if it is asked for. -/
theorem openHighPorts_of_mayOpen (h : t.MayOpenPorts) :
    ∃ ports, t.openHighPorts family = .ok { t with destinationPorts := ports } ∧
      (t.wantsHighPorts = false → ports = t.destinationPorts) := by
  unfold openHighPorts
  by_cases hw : t.wantsHighPorts = true
  · have hs : t.stateless family = [] := stateless_eq_nil_iff.mpr (h hw)
    simp [hw, hs]
  · simp [hw]

theorem openHighPorts_of_not_mayOpen (h : ¬t.MayOpenPorts) :
    t.openHighPorts family = .error (.established t.name (t.stateless family)) := by
  unfold MayOpenPorts at h
  obtain ⟨hw, hp⟩ := Classical.not_imp.mp h
  have hs : t.stateless family ≠ [] := mt stateless_eq_nil_iff.mp hp
  unfold openHighPorts
  simp [hw, hs]

end Term

namespace Scope

variable {config : Config} {n : Nat} {t : Term} {d : Date}

theorem prepare_of_mayOpen (h : t.MayOpenPorts) (name : String) (type : FilterType) :
    ∃ ports, (Scope.prepare ⟨name, config, .standard n⟩ type t).outcome =
        .ok (if t.expiration.any config.isExpired then none
          else some { t with name := (Services.standard n).truncateName t.name, destinationPorts := ports }) ∧
      (t.wantsHighPorts = false → ports = t.destinationPorts) := by
  -- Renaming a term changes neither what it asks for nor when it expires.
  let short : Term := { t with name := (Services.standard n).truncateName t.name }
  have hshort : short.MayOpenPorts := h
  obtain ⟨ports, hports, hsame⟩ := @Term.openHighPorts_of_mayOpen short type.family hshort
  refine ⟨ports, ?_, hsame⟩
  have hprep : (Services.standard n).prepare short type.family =
      .ok (some { short with destinationPorts := ports }) := by
    simp only [Services.standard, hports]
    rfl
  rw [outcome_prepare, hprep]
  by_cases hexpired : t.expiration.any config.isExpired = true
  · simp [Except.mapError, Except.map, Option.filter, short, hexpired]
  · simp [Except.mapError, Except.map, Option.filter, short, hexpired]

theorem prepare_of_not_mayOpen (h : ¬t.MayOpenPorts) (name : String) (type : FilterType) :
    (Scope.prepare ⟨name, config, .standard n⟩ type t).outcome =
      .error (.policy (.established ((Services.standard n).truncateName t.name) (t.stateless type.family))) := by
  let short : Term := { t with name := (Services.standard n).truncateName t.name }
  have hshort : ¬short.MayOpenPorts := h
  have hprep : (Services.standard n).prepare short type.family =
      .error (.established short.name (t.stateless type.family)) := by
    simp only [Services.standard, Term.openHighPorts_of_not_mayOpen hshort]
    rfl
  rw [outcome_prepare, hprep]
  rfl

/-- What preparing an expired term comes to. -/
theorem prepare_expired (hd : t.expiration = some d) (hle : d ≤ config.today) (name : String) (type : FilterType) :
    (Scope.prepare ⟨name, config, .standard n⟩ type t).outcome =
      if t.MayOpenPorts then .ok none
      else .error (.policy (.established ((Services.standard n).truncateName t.name) (t.stateless type.family))) := by
  by_cases h : t.MayOpenPorts
  · have hexpired : t.expiration.any config.isExpired = true := by
      rw [hd]
      exact decide_eq_true hle
    obtain ⟨ports, hports, -⟩ := prepare_of_mayOpen (n := n) h name type
    rw [hports, if_pos h, if_pos hexpired]
  · rw [prepare_of_not_mayOpen h, if_neg h]

end Scope

section
variable {config : Config} {d : Date} {t : Term}

def Place.only (platform : String) : Place where
  before := []
  header := { targets := [{ platform, options := ["edge"] }] }
  front := []
  back := []
  after := []

theorem renderPolicy_only (services : Services) (ts : List Term) :
    renderPolicy config services ((Place.only config.platform).fill ts) =
      ((compilePass config services (Place.only config.platform).header ts .extended "edge").outcome >>= fun rf =>
        .ok [rf]).map (assemble services) := by
  have hoptions : (Place.only config.platform).header.optionsFor config.platform = ["edge"] := by
    simp [Header.optionsFor, Place.only]
  have hplatform : (Place.only config.platform).header.hasPlatform config.platform = true :=
    Header.hasPlatform_of_options (by simp [hoptions])
  have hpasses : (Place.only config.platform).header.passes config = .ok [⟨.extended, "edge"⟩] := by
    unfold Header.passes Header.filterName? filterSelection
    rw [hoptions]
    rfl
  have hfor : ((Place.only config.platform).fill ts).filtersFor config.platform =
      [⟨(Place.only config.platform).header, ts⟩] := by
    rw [Place.filtersFor_fill, if_pos hplatform]
    simp [Place.only]
  rw [renderPolicy, outcome_compile_of_pass hfor hpasses (by decide)]

/-- An expired term is invisible in every place of every policy if and only if its ports may be opened. If they may
not, it is invisible only where the compilation fails anyway. -/
theorem expired_term_invisible_iff (n : Nat) (hd : t.expiration = some d) (hle : d ≤ config.today) :
    ((∀ l : Place, renderPolicy config (.standard n) (l.fill [t]) = renderPolicy config (.standard n) (l.fill [])) ↔
      t.MayOpenPorts) ∧
    ∀ l : Place, renderPolicy config (.standard n) (l.fill [t]) = renderPolicy config (.standard n) (l.fill []) ∨
      ∃ family, renderPolicy config (.standard n) (l.fill [t]) =
        .error (.policy (.established ((Services.standard n).truncateName t.name) (t.stateless family))) := by
  let refused : CompileError → Prop := fun e => ¬t.MayOpenPorts ∧ ∃ family,
    e = .policy (.established ((Services.standard n).truncateName t.name) (t.stateless family))
  have hprep : ∀ name type,
      SameUnless refused (Scope.prepare ⟨name, config, .standard n⟩ type t).outcome (.ok none) := by
    intro name type
    rw [Scope.prepare_expired hd hle]
    by_cases hopen : t.MayOpenPorts
    · rw [if_pos hopen]
      exact .refl _
    · rw [if_neg hopen]
      exact .inr ⟨_, ⟨hopen, type.family, rfl⟩, rfl⟩
  constructor
  · constructor
    · intro hsame
      apply Classical.byContradiction; intro hopen
      -- With nothing else to render, only the term can fail.
      have honly := hsame (Place.only config.platform)
      have hfail := Scope.prepare_expired (n := n) hd hle "edge" .extended
      rw [if_neg hopen] at hfail
      rw [renderPolicy_only, renderPolicy_only] at honly
      unfold compilePass at honly
      rw [Traced.outcome_bind, Traced.outcome_bind, Scope.outcome_terms_cons, hfail] at honly
      cases honly
    · intro hopen l
      rcases renderPolicy_insert hprep l with h | ⟨e, ⟨hnot, -⟩, -⟩
      · exact h
      · exact absurd hopen hnot
  · intro l
    rcases renderPolicy_insert hprep l with h | ⟨e, ⟨-, family, rfl⟩, h⟩
    · exact .inl h
    · exact .inr ⟨family, h⟩

end

def june : Date := ⟨Date.dayNumber 2024 6 1, by decide, by decide⟩

def tcpAnswers : Term where
  name := "answers"
  actions := [.accept]
  protocols := ["tcp"]
  options := ["established"]
  expiration := some june

def greAnswers : Term := { tcpAnswers with protocols := ["gre"] }

theorem tcpAnswers_invisible :
    tcpAnswers.expiration = some june ∧ june ≤ june ∧ tcpAnswers.MayOpenPorts ∧
      renderPolicy ⟨{}, june⟩ (.standard 100) ((Place.only "cisco").fill [tcpAnswers]) =
        renderPolicy ⟨{}, june⟩ (.standard 100) ((Place.only "cisco").fill []) := by
  have hopen : tcpAnswers.MayOpenPorts := by decide +kernel
  have hle : june ≤ june := by decide
  obtain ⟨hiff, -⟩ := @expired_term_invisible_iff ⟨{}, june⟩ june tcpAnswers 100 rfl hle
  exact ⟨rfl, hle, hopen, hiff.mpr hopen _⟩

/-- GRE has no connections, and the expired term fails a policy that renders without it. -/
theorem greAnswers_refused :
    greAnswers.expiration = some june ∧ june ≤ june ∧
      renderPolicy ⟨{}, june⟩ (.standard 100) ((Place.only "cisco").fill [greAnswers]) =
        .error (.policy (.established "answers" ["gre"])) ∧
      renderPolicy ⟨{}, june⟩ (.standard 100) ((Place.only "cisco").fill []) =
        .ok ("\n".intercalate ["no ip access-list extended edge", "ip access-list extended edge", "remark $Id:$",
          " remark Filter type is extended", "", "exit", ""]) := by
  refine ⟨rfl, by decide, ?_, ?_⟩
  all_goals decide +kernel

end AccessList
