import AccessList.Proofs.Compile.Expiry
import AccessList.Proofs.Rule.Outcome

/-!
# Fields that standard filters forbid

A term of a standard filter is checked for forbidden fields before it is rendered, but after its ports were opened. So
the first forbidden field of the first term that has one ends the compilation, unless that term asks for established
connections of protocols that have none. Then it is the ports that end it.
-/

namespace AccessList

/-! ## Forbidden fields -/

def StandardField.all : List StandardField := [protocol, icmpType, address, option, port, counter]

namespace Term

def DeclaresField (t : Term) : StandardField → Prop
  | .protocol => t.protocols ≠ []
  | .icmpType => t.icmpTypes ≠ []
  | .address => t.addressExcludes ≠ [] ∨ t.sources ≠ [] ∨ t.sourceExcludes ≠ [] ∨ t.destinations ≠ [] ∨
      t.destinationExcludes ≠ []
  | .option => t.options ≠ []
  | .port => t.sourcePorts ≠ [] ∨ t.destinationPorts ≠ []
  | .counter => t.counter ≠ none

instance (t : Term) : DecidablePred t.DeclaresField
  | .protocol => inferInstanceAs (Decidable (t.protocols ≠ []))
  | .icmpType => inferInstanceAs (Decidable (t.icmpTypes ≠ []))
  | .address => inferInstanceAs (Decidable (t.addressExcludes ≠ [] ∨ t.sources ≠ [] ∨ t.sourceExcludes ≠ [] ∨
      t.destinations ≠ [] ∨ t.destinationExcludes ≠ []))
  | .option => inferInstanceAs (Decidable (t.options ≠ []))
  | .port => inferInstanceAs (Decidable (t.sourcePorts ≠ [] ∨ t.destinationPorts ≠ []))
  | .counter => inferInstanceAs (Decidable (t.counter ≠ none))

def forbidden? (t : Term) : Option StandardField := StandardField.all.find? (t.DeclaresField ·)

theorem find?_declaresField_cons (t : Term) (field : StandardField) (fields : List StandardField) :
    (field :: fields).find? (t.DeclaresField ·) =
      if t.DeclaresField field then some field else fields.find? (t.DeclaresField ·) := by
  by_cases h : t.DeclaresField field
  · simp [h]
  · simp [h]

theorem forbiddenField?_eq_forbidden? (t : Term) : t.forbiddenField? = t.forbidden? := by
  have hprotocol : (!t.protocols.isEmpty) = true ↔ t.DeclaresField .protocol := by simp [DeclaresField]
  have hicmpType : (!t.icmpTypes.isEmpty) = true ↔ t.DeclaresField .icmpType := by simp [DeclaresField]
  have haddress : (!(t.addressExcludes ++
      (t.sources ++ t.sourceExcludes ++ t.destinations ++ t.destinationExcludes)).isEmpty) = true ↔
        t.DeclaresField .address := by
    simp [DeclaresField, imp_iff_not_or]
  have hoption : (!t.options.isEmpty) = true ↔ t.DeclaresField .option := by simp [DeclaresField]
  have hport : (!(t.sourcePorts ++ t.destinationPorts).isEmpty) = true ↔ t.DeclaresField .port := by
    simp [DeclaresField, imp_iff_not_or]
  have hcounter : t.counter.isSome = true ↔ t.DeclaresField .counter := Option.isSome_iff_ne_none
  unfold forbiddenField? forbidden? StandardField.all
  simp only [hprotocol, hicmpType, haddress, hoption, hport, hcounter, find?_declaresField_cons, List.find?_nil]

theorem forbidden?_eq_none_iff {t : Term} : t.forbidden? = none ↔ ∀ field, ¬t.DeclaresField field := by
  simp only [forbidden?, List.find?_eq_none, decide_eq_true_eq]
  constructor
  · intro h field
    apply h
    cases field <;> decide
  · intro h field _
    exact h field

theorem forbidden?_of_protocols {t : Term} (h : t.protocols ≠ []) : t.forbidden? = some .protocol := by
  unfold forbidden? StandardField.all
  rw [find?_declaresField_cons]
  exact if_pos h

theorem wantsHighPorts_of_no_field {t : Term} (h : t.forbidden? = none) : t.wantsHighPorts = false := by
  have hoptions : t.options = [] := not_not.mp (forbidden?_eq_none_iff.mp h .option)
  simp [wantsHighPorts, hoptions]

theorem forbidden?_opened {t : Term} {ports : List PortRange} (h : t.MayOpenPorts)
    (hsame : t.wantsHighPorts = false → ports = t.destinationPorts) (name : String) :
    ({ t with name := name, destinationPorts := ports } : Term).forbidden? = t.forbidden? := by
  cases hw : t.wantsHighPorts with
  | false =>
    rw [hsame hw]
    rfl
  | true =>
    -- Opened ports are a field of their own, but they are opened for protocols only, which come first.
    have hprotocols : t.protocols ≠ [] := (h hw).1
    rw [forbidden?_of_protocols hprotocols]
    exact forbidden?_of_protocols hprotocols

theorem check_eq_ok {t : Term} (h : t.check = .ok ()) : t.actions ≠ [] ∨ t.verbatims ≠ [] := (check_eq_ok_iff.mp h).2.1

end Term

/-! ## Terms of a standard filter -/

namespace Scope

theorem outcome_check_standard (s : Scope) (t : Term) :
    (s.check .standard t).outcome =
      match t.forbidden? with
      | none => .ok ()
      | some field => .error (.standardTerm s.filter t.name field) := by
  unfold check checkStandard
  rw [t.forbiddenField?_eq_forbidden?]
  cases t.forbidden? with
  | none => rfl
  | some field => rfl

/-- A term that is fit for some filter renders in a standard one. -/
theorem exists_standard (s : Scope) {t : Term} (h : t.actions ≠ [] ∨ t.verbatims ≠ []) :
    ∃ rendering, s.standard t = .ok rendering := by
  generalize houtcome : s.standard t = outcome
  cases standard_eq_iff.mp houtcome with
  | otherPlatform | verbatim | rules => exact ⟨_, rfl⟩
  | noAction _ hv ha => exact absurd hv (h.resolve_left (not_not.mpr (List.head?_eq_none_iff.mp ha)))

variable {config : Config} {n : Nat} {name : String}

theorem renders_of_no_field {t : Term} (hexpired : t.expiration.any config.isExpired = false)
    (hfit : t.actions ≠ [] ∨ t.verbatims ≠ []) (hfree : t.forbidden? = none) :
    ∃ t' lines, (Scope.prepare ⟨name, config, .standard n⟩ .standard t).outcome = .ok (some t') ∧
      (Scope.check ⟨name, config, .standard n⟩ .standard t').outcome = .ok () ∧
      (Scope.render ⟨name, config, .standard n⟩ .standard t').outcome = .ok lines := by
  have hopen : t.MayOpenPorts := by simp [Term.MayOpenPorts, Term.wantsHighPorts_of_no_field hfree]
  obtain ⟨ports, hprep, hsame⟩ := prepare_of_mayOpen (n := n) hopen name .standard
  rw [hexpired] at hprep
  obtain ⟨rendering, hrendering⟩ := exists_standard ⟨name, config, .standard n⟩
    (t := { t with name := (Services.standard n).truncateName t.name, destinationPorts := ports }) hfit
  refine ⟨_, rendering.lines (StandardRule.text name), hprep, ?_, ?_⟩
  · rw [outcome_check_standard, Term.forbidden?_opened hopen hsame, hfree]
  · apply render_eq_ok_iff.mpr
    exact ⟨rendering.suppression?, by rw [rendered, hrendering]; rfl⟩

theorem terms_of_no_field {ts : List Term} (hexpired : ∀ t ∈ ts, t.expiration.any config.isExpired = false)
    (hfit : ∀ t ∈ ts, t.actions ≠ [] ∨ t.verbatims ≠ []) (hfree : ∀ t ∈ ts, t.forbidden? = none) (gs : ObjectGroups) :
    ∃ rts, (Scope.terms ⟨name, config, .standard n⟩ .standard gs ts).outcome = .ok (rts, gs) := by
  induction ts with
  | nil => exact ⟨[], rfl⟩
  | cons t ts ih =>
    obtain ⟨hexpired, hexpired'⟩ := List.forall_mem_cons.mp hexpired
    obtain ⟨hfit, hfit'⟩ := List.forall_mem_cons.mp hfit
    obtain ⟨hfree, hfree'⟩ := List.forall_mem_cons.mp hfree
    obtain ⟨rts, hrts⟩ := ih hexpired' hfit' hfree'
    obtain ⟨t', lines, hprep, hcheck, hlines⟩ := @renders_of_no_field config n name t hexpired hfit hfree
    have hcollect : Scope.collect ⟨name, config, .standard n⟩ .standard gs t' = gs := if_neg (by decide)
    refine ⟨⟨t'.name, lines⟩ :: rts, ?_⟩
    rw [outcome_terms_cons, hprep]
    simp only [bind, Except.bind, hcheck, hlines, hcollect, hrts]

/-- What a pass comes to whose first term with a forbidden field is `t`. -/
theorem terms_of_field {front back : List Term} {t : Term} {field : StandardField}
    (hexpired : ∀ u ∈ front ++ t :: back, u.expiration.any config.isExpired = false)
    (hfit : ∀ u ∈ front ++ t :: back, u.actions ≠ [] ∨ u.verbatims ≠ []) (hfree : ∀ u ∈ front, u.forbidden? = none)
    (hfield : t.forbidden? = some field) (gs : ObjectGroups) :
    (Scope.terms ⟨name, config, .standard n⟩ .standard gs (front ++ t :: back)).outcome =
      .error (if t.MayOpenPorts then .standardTerm name ((Services.standard n).truncateName t.name) field
        else .policy (.established ((Services.standard n).truncateName t.name) (t.stateless .inet))) := by
  obtain ⟨hfrontExpired, hexpired⟩ := List.forall_mem_append.mp hexpired
  obtain ⟨hfrontFit, -⟩ := List.forall_mem_append.mp hfit
  obtain ⟨rts, hrts⟩ := terms_of_no_field hfrontExpired hfrontFit hfree gs
  -- The terms before `t` render, so the run fails where `t` does.
  rw [outcome_terms_append, hrts]
  show (terms _ .standard gs (t :: back)).outcome >>= _ = _
  rw [outcome_terms_cons]
  by_cases hopen : t.MayOpenPorts
  · obtain ⟨ports, hprep, hsame⟩ := prepare_of_mayOpen (n := n) hopen name .standard
    rw [hexpired t (List.mem_cons_self ..)] at hprep
    rw [hprep, if_pos hopen]
    show ((check _ .standard _).outcome >>= _) >>= _ = _
    rw [outcome_check_standard, Term.forbidden?_opened hopen hsame, hfield]
    rfl
  · rw [prepare_of_not_mayOpen hopen, if_neg hopen]
    rfl

end Scope

/-! ## Policies with a standard filter -/

def Filter.firstForbidden? (f : Filter) : Option (Term × StandardField) :=
  f.terms.findSome? fun t => t.forbidden?.map fun field => (t, field)

section
variable {config : Config} {p : Policy} {f : Filter} {name : String} {rest : List String}

/-- A standard filter compiles if no term has a forbidden field. Otherwise the first such field is reported, if and
only if the ports of its term may be opened. -/
theorem forbidden_field_reported_iff (n : Nat) (hp : p.check = .ok ()) (hf : p.filtersFor config.platform = [f])
    (hoptions : f.header.optionsFor config.platform = name :: "standard" :: rest)
    (hname : FilterType.standard.checkName name = .ok ())
    (hexpired : ∀ t ∈ f.terms, t.expiration.any config.isExpired = false) :
    (f.firstForbidden? = none → ∃ rf, (p.compile config (.standard n)).outcome = .ok [rf]) ∧
    ∀ t field, f.firstForbidden? = some (t, field) →
      ((p.compile config (.standard n)).outcome =
        .error (.standardTerm name ((Services.standard n).truncateName t.name) field) ↔ t.MayOpenPorts) ∧
      (¬t.MayOpenPorts → (p.compile config (.standard n)).outcome =
        .error (.policy (.established ((Services.standard n).truncateName t.name) (t.stateless .inet)))) := by
  have hword : FilterSelection.parse "standard" = .ok (.single .standard) := FilterSelection.parse_eq_ok_iff.mpr rfl
  have hpasses : f.header.passes config = .ok [⟨.standard, name⟩] := Header.passes_of_options hoptions hword
  have hcompile := @outcome_compile_of_pass _ (.standard n) _ _ _ hf hpasses hname
  rw [outcome_compilePass] at hcompile
  have hfit : ∀ t ∈ f.terms, t.actions ≠ [] ∨ t.verbatims ≠ [] := by
    intro t ht
    have hmem : f ∈ p.filters := List.mem_of_mem_filter (hf ▸ List.mem_singleton_self f)
    have hterms := forM_eq_ok_iff.mp hp f hmem
    exact Term.check_eq_ok (forM_eq_ok_iff.mp hterms t ht)
  constructor
  · intro hnone
    have hfree : ∀ t ∈ f.terms, t.forbidden? = none := by
      intro t ht
      simpa using List.findSome?_eq_none_iff.mp hnone t ht
    obtain ⟨rts, hrts⟩ := Scope.terms_of_no_field hexpired hfit hfree { filter := name }
    rw [hcompile, hrts]
    exact ⟨_, rfl⟩
  · intro t field hfirst
    obtain ⟨front, t', back, hterms, hfield, hfront⟩ := List.findSome?_eq_some_iff.mp hfirst
    obtain ⟨field', hfield, heq⟩ := Option.map_eq_some_iff.mp hfield
    cases heq
    have hfree : ∀ t ∈ front, t.forbidden? = none := by
      intro t ht
      simpa using hfront t ht
    rw [hterms] at hexpired hfit hcompile
    rw [Scope.terms_of_field hexpired hfit hfree hfield] at hcompile
    have houtcome : (p.compile config (.standard n)).outcome = .error (if t.MayOpenPorts
        then .standardTerm name ((Services.standard n).truncateName t.name) field
        else .policy (.established ((Services.standard n).truncateName t.name) (t.stateless .inet))) := hcompile
    rw [houtcome]
    constructor
    · by_cases hopen : t.MayOpenPorts
      · simp [hopen]
      · simp [hopen]
    · intro hopen
      rw [if_neg hopen]

end

def listFilter (ts : List Term) : Filter where
  header := { targets := [{ platform := "cisco", options := ["10", "standard"] }] }
  terms := ts

def restTerm : Term where
  name := "rest"
  actions := [.deny]

/-- Neither its text nor that it is for other platforms keeps it from being checked. -/
def countedTerm : Term where
  name := "counted"
  options := ["log"]
  verbatims := [⟨"cisco", "access-list 10 permit any"⟩]
  platformExcludes := ["cisco"]
  counter := some "hits"

def anyAnswers : Term := { tcpAnswers with protocols := [], expiration := none }

theorem countedTerm_reported :
    Policy.check ⟨[listFilter [restTerm, countedTerm]]⟩ = .ok () ∧
      Policy.filtersFor ⟨[listFilter [restTerm, countedTerm]]⟩ "cisco" = [listFilter [restTerm, countedTerm]] ∧
      (listFilter [restTerm, countedTerm]).header.optionsFor "cisco" = ["10", "standard"] ∧
      FilterType.standard.checkName "10" = .ok () ∧
      (∀ t ∈ (listFilter [restTerm, countedTerm]).terms, t.expiration.any (Config.isExpired ⟨{}, june⟩) = false) ∧
      (Policy.compile ⟨{}, june⟩ (.standard 100) ⟨[listFilter [restTerm, countedTerm]]⟩).outcome =
        .error (.standardTerm "10" "counted" .option) := by
  have hp : Policy.check ⟨[listFilter [restTerm, countedTerm]]⟩ = .ok () := by decide +kernel
  have hf : Policy.filtersFor ⟨[listFilter [restTerm, countedTerm]]⟩ "cisco" =
      [listFilter [restTerm, countedTerm]] := by decide +kernel
  have hoptions : (listFilter [restTerm, countedTerm]).header.optionsFor "cisco" = ["10", "standard"] := by
    decide +kernel
  have hname : FilterType.standard.checkName "10" = .ok () := by decide +kernel
  have hexpired : ∀ t ∈ (listFilter [restTerm, countedTerm]).terms,
      t.expiration.any (Config.isExpired ⟨{}, june⟩) = false := by decide +kernel
  have hfirst : (listFilter [restTerm, countedTerm]).firstForbidden? = some (countedTerm, .option) := by
    decide +kernel
  have hopen : countedTerm.MayOpenPorts := by decide +kernel
  obtain ⟨-, hreported⟩ := @forbidden_field_reported_iff ⟨{}, june⟩ _ _ _ _ 100 hp hf hoptions hname hexpired
  refine ⟨hp, hf, hoptions, hname, hexpired, ?_⟩
  have houtcome := (hreported countedTerm .option hfirst).1.mpr hopen
  have hshort : (Services.standard 100).truncateName countedTerm.name = "counted" := by decide +kernel
  rwa [hshort] at houtcome

/-- The option of the term is forbidden, and what is reported is that it has no protocol. -/
theorem anyAnswers_not_reported :
    Policy.check ⟨[listFilter [anyAnswers]]⟩ = .ok () ∧
      (listFilter [anyAnswers]).firstForbidden? = some (anyAnswers, .option) ∧
      (Policy.compile ⟨{}, june⟩ (.standard 100) ⟨[listFilter [anyAnswers]]⟩).outcome =
        .error (.policy (.established "answers" ["inet"])) := by
  refine ⟨?_, ?_, ?_⟩
  all_goals decide +kernel

end AccessList
