import AccessList.Assemble
import AccessList.Proofs.Compile.Run

/-!
# Inserting a term into a policy

A term is prepared before anything else looks at it. If preparing it comes to nothing, the policy compiles as it
does without the term; if preparing fails, the policy fails with that error or has failed before. Both follow from
one relation between the two runs, which every layer of the compiler preserves.
-/

namespace AccessList

/-- The first outcome is the second one, unless it is one of the errors `E`. -/
def SameUnless {α : Type} (E : CompileError → Prop) (x y : Except CompileError α) : Prop :=
  x = y ∨ ∃ e, E e ∧ x = .error e

namespace SameUnless

variable {α β : Type} {E : CompileError → Prop}

theorem refl (x : Except CompileError α) : SameUnless E x x := .inl rfl

theorem bind {x y : Except CompileError α} {f g : α → Except CompileError β} (h : SameUnless E x y)
    (hfg : ∀ a, SameUnless E (f a) (g a)) : SameUnless E (x >>= f) (y >>= g) := by
  rcases h with h | ⟨e, he, h⟩
  · subst h
    cases x with
    | error e => exact .inl rfl
    | ok a => exact hfg a
  · subst h
    exact .inr ⟨e, he, rfl⟩

theorem map {x y : Except CompileError α} (f : α → β) (h : SameUnless E x y) : SameUnless E (x.map f) (y.map f) := by
  rcases h with h | ⟨e, he, h⟩
  · subst h
    exact refl _
  · subst h
    exact .inr ⟨e, he, rfl⟩

end SameUnless

/-! ## Runs over the terms -/

namespace Scope

variable {s : Scope} {type : FilterType} {E : CompileError → Prop}

theorem terms_insert {t : Term} (ht : SameUnless E (s.prepare type t).outcome (.ok none)) (gs : ObjectGroups)
    (front back : List Term) :
    SameUnless E (s.terms type gs (front ++ t :: back)).outcome (s.terms type gs (front ++ back)).outcome := by
  rw [outcome_terms_append, outcome_terms_append]
  apply (SameUnless.refl _).bind; intro done
  apply SameUnless.bind _ fun _ => .refl _
  rw [outcome_terms_cons]
  exact ht.bind fun _ => .refl _

end Scope

/-! ## Runs over filters and policies -/

structure Place where
  before : List Filter
  header : Header
  front : List Term
  back : List Term
  after : List Filter

def Place.fill (l : Place) (ts : List Term) : Policy where
  filters := l.before ++ { header := l.header, terms := l.front ++ ts ++ l.back } :: l.after

section
variable {config : Config} {services : Services} {E : CompileError → Prop} {t : Term}

theorem Place.filtersFor_fill (l : Place) (ts : List Term) (platform : String) :
    (l.fill ts).filtersFor platform = l.before.filter (·.header.hasPlatform platform) ++
      ((if l.header.hasPlatform platform then [{ header := l.header, terms := l.front ++ ts ++ l.back }] else []) ++
        l.after.filter (·.header.hasPlatform platform)) := by
  unfold Policy.filtersFor fill
  rw [List.filter_append, List.filter_cons]
  by_cases h : l.header.hasPlatform platform = true
  · simp [h]
  · simp [h]

variable (ht : ∀ name type, SameUnless E (Scope.prepare ⟨name, config, services⟩ type t).outcome (.ok none))
include ht

theorem compilePass_insert (header : Header) (front back : List Term) (type : FilterType) (name : String) :
    SameUnless E (compilePass config services header (front ++ t :: back) type name).outcome
      (compilePass config services header (front ++ back) type name).outcome := by
  rw [outcome_compilePass, outcome_compilePass]
  exact (Scope.terms_insert (ht name type) _ front back).map _

theorem compilePasses_insert (header : Header) (front back : List Term) (name : String)
    (selection : FilterSelection) (types : List FilterType) :
    SameUnless E (compilePasses config services ⟨header, front ++ t :: back⟩ name selection types).outcome
      (compilePasses config services ⟨header, front ++ back⟩ name selection types).outcome := by
  induction types with
  | nil => exact .refl _
  | cons type types ih =>
    unfold compilePasses
    simp only [Traced.outcome_bind]
    apply (SameUnless.refl _).bind; intro _
    apply (compilePass_insert ht header front back type _).bind; intro _
    exact ih.bind fun _ => .refl _

theorem compileFilter_insert (header : Header) (front back : List Term) :
    SameUnless E (compileFilter config services ⟨header, front ++ t :: back⟩).outcome
      (compileFilter config services ⟨header, front ++ back⟩).outcome := by
  unfold compileFilter
  cases header.filterName? config.platform with
  | none => exact .refl _
  | some name =>
    simp only [Traced.outcome_bind]
    apply (SameUnless.refl _).bind; intro selection
    exact compilePasses_insert ht header front back name selection _

theorem compileFilters_insert (before after : List Filter) (header : Header) (front back : List Term) :
    SameUnless E (compileFilters config services (before ++ ⟨header, front ++ t :: back⟩ :: after)).outcome
      (compileFilters config services (before ++ ⟨header, front ++ back⟩ :: after)).outcome := by
  rw [outcome_compileFilters_append, outcome_compileFilters_append]
  apply (SameUnless.refl _).bind; intro _
  apply SameUnless.bind _ fun _ => .refl _
  rw [outcome_compileFilters_cons, outcome_compileFilters_cons]
  exact (compileFilter_insert ht header front back).bind fun _ => .refl _

/-- A policy with a term that prepares to nothing, or fails, against the policy without the term. -/
theorem renderPolicy_insert (l : Place) :
    SameUnless E (renderPolicy config services (l.fill [t])) (renderPolicy config services (l.fill [])) := by
  unfold renderPolicy Policy.compile
  apply SameUnless.map
  rw [l.filtersFor_fill, l.filtersFor_fill]
  by_cases h : l.header.hasPlatform config.platform = true
  · simp only [h, ite_true, List.append_assoc, List.singleton_append, List.nil_append]
    exact compileFilters_insert ht _ _ l.header l.front l.back
  · simp only [h]
    exact .refl _

end

end AccessList
