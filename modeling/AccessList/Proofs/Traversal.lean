import Mathlib.Data.List.Forall2

/-!
# Traversals that may fail

A traversal succeeds when all its steps do, and then its results are those of the steps. It fails as one of its steps
does.
-/

namespace AccessList

variable {ε α β γ : Type}

theorem bind_eq_ok_iff {x : Except ε α} {f : α → Except ε β} {b : β} :
    x >>= f = .ok b ↔ ∃ a, x = .ok a ∧ f a = .ok b := by
  cases x with
  | error e => simp [bind, Except.bind]
  | ok a => simp [bind, Except.bind]

theorem map_eq_ok_iff {x : Except ε α} {f : α → β} {b : β} : x.map f = .ok b ↔ ∃ a, x = .ok a ∧ f a = b := by
  cases x with
  | error e => simp [Except.map]
  | ok a => simp [Except.map]

theorem bind_eq_error_iff {x : Except ε α} {f : α → Except ε β} {e : ε} :
    x >>= f = .error e ↔ x = .error e ∨ ∃ a, x = .ok a ∧ f a = .error e := by
  cases x with
  | error e => simp [bind, Except.bind]
  | ok a => simp [bind, Except.bind]

theorem map_eq_error_iff {x : Except ε α} {f : α → β} {e : ε} : x.map f = .error e ↔ x = .error e := by
  cases x with
  | error e => simp [Except.map]
  | ok a => simp [Except.map]

theorem toOption_eq_some_iff {x : Except ε α} {a : α} : x.toOption = some a ↔ x = .ok a := by
  cases x with
  | error e => simp [Except.toOption]
  | ok a => simp [Except.toOption]

theorem mapError_eq_ok_iff {x : Except ε α} {f : ε → β} {a : α} : x.mapError f = .ok a ↔ x = .ok a := by
  cases x with
  | error e => simp [Except.mapError]
  | ok a => simp [Except.mapError]

theorem mapError_eq_error_iff {x : Except ε α} {f : ε → β} {b : β} :
    x.mapError f = .error b ↔ ∃ e, x = .error e ∧ f e = b := by
  cases x with
  | error e => simp [Except.mapError]
  | ok a => simp [Except.mapError]

theorem exists_of_forall₂ {R : α → β → Prop} {as : List α} {bs : List β} (h : List.Forall₂ R as bs) :
    ∀ a ∈ as, ∃ b ∈ bs, R a b := by
  induction h with
  | nil =>
    intro a ha
    cases ha
  | cons hab _ ih =>
    intro a ha
    rcases List.mem_cons.mp ha with rfl | ha
    · exact ⟨_, List.mem_cons_self .., hab⟩
    · obtain ⟨b, hb, h⟩ := ih a ha
      exact ⟨b, List.mem_cons_of_mem _ hb, h⟩

theorem forall_mem_congr_of_forall₂ {R : α → β → Prop} {P : α → Prop} {Q : β → Prop} {as : List α} {bs : List β}
    (h : List.Forall₂ R as bs) (hR : ∀ a b, R a b → (P a ↔ Q b)) : (∀ a ∈ as, P a) ↔ ∀ b ∈ bs, Q b := by
  induction h with
  | nil => exact iff_of_true nofun nofun
  | cons hab _ ih => rw [List.forall_mem_cons, List.forall_mem_cons, hR _ _ hab, ih]

theorem mapM_eq_ok_iff {f : α → Except ε β} {as : List α} {bs : List β} :
    as.mapM f = .ok bs ↔ List.Forall₂ (fun a b => f a = .ok b) as bs := by
  induction as generalizing bs with
  | nil => simp [pure, Except.pure, eq_comm]
  | cons a as ih =>
    rw [List.mapM_cons, bind_eq_ok_iff, List.forall₂_cons_left_iff]
    apply exists_congr; intro b
    rw [bind_eq_ok_iff]
    simp only [pure, Except.pure, Except.ok.injEq, ih]
    constructor
    · intro h
      obtain ⟨hb, bs', hbs, rfl⟩ := h
      exact ⟨bs', hb, hbs, rfl⟩
    · intro h
      obtain ⟨bs', hb, hbs, rfl⟩ := h
      exact ⟨hb, bs', hbs, rfl⟩

theorem forM_eq_ok_iff {f : α → Except ε Unit} {as : List α} : as.forM f = .ok () ↔ ∀ a ∈ as, f a = .ok () := by
  induction as with
  | nil => simp [List.forM, pure, Except.pure]
  | cons a as ih =>
    show (f a >>= fun _ => as.forM f) = .ok () ↔ _
    rw [bind_eq_ok_iff, List.forall_mem_cons, ih]
    constructor
    · intro h
      obtain ⟨⟨⟩, ha, has⟩ := h
      exact ⟨ha, has⟩
    · intro h
      exact ⟨(), h⟩

theorem mem_of_mapM_ok {f : α → Except ε β} {as : List α} {bs : List β} (h : as.mapM f = .ok bs) (b : β) :
    b ∈ bs ↔ ∃ a ∈ as, f a = .ok b := by
  have hsteps := mapM_eq_ok_iff.mp h
  constructor
  · intro hb
    have hflip : List.Forall₂ (fun b a => f a = .ok b) bs as := hsteps.flip
    exact exists_of_forall₂ hflip b hb
  · intro hb
    obtain ⟨a, ha, hab⟩ := hb
    obtain ⟨b', hb', hab'⟩ := exists_of_forall₂ hsteps a ha
    rw [hab] at hab'
    cases hab'
    exact hb'

theorem exists_of_mapM_error {f : α → Except ε β} {as : List α} {e : ε} (h : as.mapM f = .error e) :
    ∃ a ∈ as, f a = .error e := by
  induction as with
  | nil => cases h
  | cons a as ih =>
    rw [List.mapM_cons, bind_eq_error_iff] at h
    rcases h with h | ⟨b, -, h⟩
    · exact ⟨a, List.mem_cons_self .., h⟩
    rcases bind_eq_error_iff.mp h with h | ⟨bs, -, h⟩
    · obtain ⟨a', ha, h⟩ := ih h
      exact ⟨a', List.mem_cons_of_mem _ ha, h⟩
    · cases h

/-- If every step of one traversal has its like in another, then so has the traversal. -/
theorem exists_mapM {f : α → Except ε β} {g : α → Except ε γ} {R : β → γ → Prop} {as : List α} {bs : List β}
    (hstep : ∀ a ∈ as, ∀ b, f a = .ok b → ∃ c, g a = .ok c ∧ R b c) (h : as.mapM f = .ok bs) :
    ∃ cs, as.mapM g = .ok cs ∧ List.Forall₂ R bs cs := by
  induction as generalizing bs with
  | nil =>
    cases h
    exact ⟨[], rfl, .nil⟩
  | cons a as ih =>
    obtain ⟨hhead, htail⟩ := List.forall_mem_cons.mp hstep
    obtain ⟨b, bs', hb, hbs, rfl⟩ := List.forall₂_cons_left_iff.mp (mapM_eq_ok_iff.mp h)
    obtain ⟨c, hc, hR⟩ := hhead b hb
    obtain ⟨cs, hcs, hRs⟩ := ih htail (mapM_eq_ok_iff.mpr hbs)
    refine ⟨c :: cs, ?_, .cons hR hRs⟩
    rw [List.mapM_cons, hc, hcs]
    rfl

end AccessList
