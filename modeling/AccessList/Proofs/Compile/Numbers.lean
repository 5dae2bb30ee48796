import AccessList.Proofs.Compile.Run

/-!
# Numbers of lists

The device keeps some numbers for standard lists. Standard and extended filters are held to that when their names are
checked. Object-group filters are declared as extended lists too, and nothing checks their names.
-/

namespace AccessList

/-! ## The value of a name -/

def StandardNumber (n : Nat) : Prop := 1 ≤ n ∧ n ≤ 99 ∨ 1300 ≤ n ∧ n ≤ 1999

instance (n : Nat) : Decidable (StandardNumber n) := inferInstanceAs (Decidable (_ ∨ _))

theorem isStandardNumber_iff {n : Nat} : isStandardNumber n = true ↔ StandardNumber n := by
  simp [isStandardNumber, StandardNumber]

namespace Text

def value (s : String) : Nat := Nat.ofDigitChars 10 s.toList 0

theorem digit?_of_isDigit {c : Char} (h : c.isDigit = true) : digit? 10 c = some (c.toNat - '0'.toNat) := by
  simp only [Char.isDigit, Bool.and_eq_true, decide_eq_true_eq] at h
  have hle : '0' ≤ c ∧ c ≤ '9' := h
  have hlow : '0'.toNat ≤ c.toNat := h.1
  have hhigh : c.toNat ≤ '9'.toNat := h.2
  have hlt : c.toNat - '0'.toNat < 10 := by
    simp only [Char.reduceToNat] at hlow hhigh ⊢
    omega
  simp only [digit?, if_pos hle, if_pos hlt]

theorem digitsFrom_eq {cs : List Char} (h : ∀ c ∈ cs, c.isDigit = true) (acc : Nat) :
    digitsFrom 10 acc cs = some (Nat.ofDigitChars 10 cs acc) := by
  induction cs generalizing acc with
  | nil => rfl
  | cons c cs ih =>
    obtain ⟨hc, hcs⟩ := List.forall_mem_cons.mp h
    rw [digitsFrom, digit?_of_isDigit hc, Option.bind_some, ih hcs, Nat.ofDigitChars_cons, Nat.mul_comm]

theorem digits?_of_isNumeric {s : String} (h : isNumeric s = true) : digits? 10 s.toList = some (value s) := by
  simp only [isNumeric, Bool.and_eq_true, List.all_eq_true] at h
  obtain ⟨hne, hdigits⟩ := h
  unfold value
  cases hs : s.toList with
  | nil =>
    have hempty : s = "" := String.toList_eq_nil_iff.mp hs
    simp [hempty] at hne
  | cons c cs =>
    rw [hs] at hdigits
    exact digitsFrom_eq hdigits 0

end Text

/-- The name of a filter suits its type if it is no number of the other kind. -/
theorem FilterType.checkName_eq_ok_iff {type : FilterType} {name : String} (h : Text.isNumeric name = true) :
    type.checkName name = .ok () ↔ (type = .extended → ¬StandardNumber (Text.value name)) ∧
      (type = .standard → StandardNumber (Text.value name)) := by
  unfold checkName
  rw [if_pos h, Text.digits?_of_isNumeric h]
  simp only [isStandardNumber_iff]
  by_cases hn : StandardNumber (Text.value name)
  · cases type <;> simp [hn]
  · cases type <;> simp [hn]

/-! ## Declarations -/

theorem append_ne_append {a b : String} (hab : ¬a.toList <+: b.toList) (hba : ¬b.toList <+: a.toList) (s t : String) :
    a ++ s ≠ b ++ t := by
  intro h
  have hlist : a.toList ++ s.toList = b.toList ++ t.toList := by simpa using congrArg String.toList h
  have ha : a.toList <+: b.toList ++ t.toList := ⟨s.toList, hlist⟩
  rcases List.prefix_or_prefix_of_prefix ha (List.prefix_append _ _) with hprefix | hprefix
  · exact hab hprefix
  · exact hba hprefix

def extendedDeclaration (n : String) : String := "ip access-list extended " ++ n

/-- Filters of two types are declared as extended lists. -/
theorem extendedDeclaration_mem_iff {type : FilterType} {name n : String} :
    extendedDeclaration n ∈ type.lifecycle name ↔ (type = .extended ∨ type = .objectGroup) ∧ n = name := by
  -- All other lines differ from a declaration within their fixed words, whatever the names are.
  have hreset : extendedDeclaration n ≠ "no ip access-list extended " ++ name :=
    append_ne_append (by decide +kernel) (by decide +kernel) _ _
  have hnumbered : extendedDeclaration n ≠ "no access-list " ++ name :=
    append_ne_append (by decide +kernel) (by decide +kernel) _ _
  have hresetStandard : extendedDeclaration n ≠ "no ip access-list standard " ++ name :=
    append_ne_append (by decide +kernel) (by decide +kernel) _ _
  have hstandard : extendedDeclaration n ≠ "ip access-list standard " ++ name :=
    append_ne_append (by decide +kernel) (by decide +kernel) _ _
  have hresetInet6 : extendedDeclaration n ≠ "no ipv6 access-list " ++ name :=
    append_ne_append (by decide +kernel) (by decide +kernel) _ _
  have hinet6 : extendedDeclaration n ≠ "ipv6 access-list " ++ name :=
    append_ne_append (by decide +kernel) (by decide +kernel) _ _
  have hextended : extendedDeclaration n = "ip access-list extended " ++ name ↔ n = name :=
    String.append_right_inj _
  cases type with
  | standard =>
    unfold FilterType.lifecycle
    by_cases hn : Text.isNumeric name = true
    · simp [hn, hnumbered]
    · simp [hn, hresetStandard, hstandard]
  | extended => simp [FilterType.lifecycle, hreset, hextended]
  | objectGroup => simp [FilterType.lifecycle, hreset, hextended]
  | inet6 => simp [FilterType.lifecycle, hresetInet6, hinet6]

/-! ## Numbers that compile -/

section
variable {config : Config} {services : Services} {p : Policy} {rfs : List RenderedFilter}

theorem Header.mem_passes_objectGroup_iff {h : Header} {passes : List Pass} (hpasses : h.passes config = .ok passes)
    {n : String} : ⟨.objectGroup, n⟩ ∈ passes ↔ ∃ rest, h.optionsFor config.platform = n :: "object-group" :: rest := by
  constructor
  · intro hpass
    obtain ⟨name, selection, heq, hselection⟩ := exists_selection hpasses
    subst heq
    cases selection with
    | mixed => simp [FilterSelection.passes] at hpass
    | single type =>
      simp only [FilterSelection.passes, FilterSelection.passName, List.map_cons, List.map_nil,
        List.mem_singleton, Pass.mk.injEq] at hpass
      obtain ⟨htype, hname⟩ := hpass
      subst htype
      rcases hselection with ⟨-, hextended⟩ | ⟨rest, hoptions⟩
      · cases hextended
      · exact ⟨rest, by simpa [FilterSelection.word, FilterType.name, hname] using hoptions⟩
  · intro hoptions
    obtain ⟨rest, hoptions⟩ := hoptions
    have hword : FilterSelection.parse "object-group" = .ok (.single .objectGroup) :=
      FilterSelection.parse_eq_ok_iff.mpr rfl
    rw [passes_of_options hoptions hword] at hpasses
    cases hpasses
    simp [FilterSelection.passes, FilterSelection.passName]

theorem checkName_of_compile (h : (p.compile config services).outcome = .ok rfs) {rf : RenderedFilter}
    (hrf : rf ∈ rfs) : rf.type.checkName rf.name = .ok () := by
  obtain ⟨f, -, passes, -, pass, -, hrun⟩ := mem_compileFilters h hrf
  obtain ⟨hcheck, -, hname, htype, -⟩ := Pass.run_eq_ok_iff.mp hrun
  rw [hname, htype]
  exact hcheck

/-- An object-group filter is one that a header asks for under its name. -/
theorem exists_objectGroup_iff (h : (p.compile config services).outcome = .ok rfs) {n : String} :
    (∃ rf ∈ rfs, rf.type = .objectGroup ∧ rf.name = n) ↔
      ∃ f ∈ p.filtersFor config.platform, ∃ rest,
        f.header.optionsFor config.platform = n :: "object-group" :: rest := by
  constructor
  · intro hrendered
    obtain ⟨rf, hrf, htype, hname⟩ := hrendered
    obtain ⟨f, hf, passes, hpasses, pass, hpass, hrun⟩ := mem_compileFilters h hrf
    obtain ⟨-, -, hrfName, hrfType, -⟩ := Pass.run_eq_ok_iff.mp hrun
    have hown : pass = ⟨.objectGroup, n⟩ := by rw [← htype, ← hname, hrfName, hrfType]
    rw [hown, Header.mem_passes_objectGroup_iff hpasses] at hpass
    exact ⟨f, hf, hpass⟩
  · intro hasked
    obtain ⟨f, hf, hoptions⟩ := hasked
    obtain ⟨passes, hpasses, hrun⟩ := exists_of_compileFilters h hf
    obtain ⟨rf, hrf, hrun⟩ := hrun _ ((Header.mem_passes_objectGroup_iff hpasses).mpr hoptions)
    obtain ⟨-, -, hname, htype, -⟩ := Pass.run_eq_ok_iff.mp hrun
    exact ⟨rf, hrf, htype, hname⟩

/-- In a policy that compiles, no extended list is declared under a number of standard lists if and only if no
object-group filter is asked for under one. Extended filters never have such a number, and standard filters have no
other. -/
theorem declared_numbers_iff (h : (p.compile config services).outcome = .ok rfs) :
    ((∀ rf ∈ rfs, ∀ n, Text.isNumeric n = true → extendedDeclaration n ∈ rf.type.lifecycle rf.name →
        ¬StandardNumber (Text.value n)) ↔
      ∀ f ∈ p.filtersFor config.platform, ∀ n rest,
        f.header.optionsFor config.platform = n :: "object-group" :: rest → Text.isNumeric n = true →
          ¬StandardNumber (Text.value n)) ∧
    (∀ rf ∈ rfs, rf.type = .extended → Text.isNumeric rf.name = true → ¬StandardNumber (Text.value rf.name)) ∧
    ∀ rf ∈ rfs, rf.type = .standard → Text.isNumeric rf.name = true → StandardNumber (Text.value rf.name) := by
  have hextended : ∀ rf ∈ rfs, rf.type = .extended → Text.isNumeric rf.name = true →
      ¬StandardNumber (Text.value rf.name) := by
    intro rf hrf htype hn
    exact ((FilterType.checkName_eq_ok_iff hn).mp (checkName_of_compile h hrf)).1 htype
  refine ⟨?_, hextended, ?_⟩
  · constructor
    · intro hdeclared f hf n rest hoptions hn
      obtain ⟨rf, hrf, htype, hname⟩ := (exists_objectGroup_iff h).mpr ⟨f, hf, rest, hoptions⟩
      exact hdeclared rf hrf n hn (extendedDeclaration_mem_iff.mpr ⟨.inr htype, hname.symm⟩)
    · intro hasked rf hrf n hn hdeclared
      obtain ⟨htype, hname⟩ := extendedDeclaration_mem_iff.mp hdeclared
      subst hname
      -- An extended filter was checked, an object-group filter is one that some header asks for.
      rcases htype with htype | htype
      · exact hextended rf hrf htype hn
      · obtain ⟨f, hf, rest, hoptions⟩ := (exists_objectGroup_iff h).mp ⟨rf, hrf, htype, rfl⟩
        exact hasked f hf rf.name rest hoptions hn
  · intro rf hrf htype hn
    exact ((FilterType.checkName_eq_ok_iff hn).mp (checkName_of_compile h hrf)).2 htype

end

def bareFilter (options : List String) : Filter where
  header := { targets := [{ platform := "cisco", options }] }

def bareRendered (options : List String) (name : String) (type : FilterType) : RenderedFilter where
  header := (bareFilter options).header
  name := name
  type := type
  terms := []
  groups := { filter := name }

/-- Zeros may stand before a number, and a number may be of any length. -/
def numberedPolicy : Policy where
  filters := [bareFilter ["0050", "standard"], bareFilter ["4294967346", "extended"], bareFilter ["150", "mixed"],
    bareFilter ["200", "object-group"]]

def numberedRendered : List RenderedFilter := [
  bareRendered ["0050", "standard"] "0050" .standard,
  bareRendered ["4294967346", "extended"] "4294967346" .extended,
  bareRendered ["150", "mixed"] "150" .extended,
  bareRendered ["150", "mixed"] "ipv6-150" .inet6,
  bareRendered ["200", "object-group"] "200" .objectGroup]

theorem numberedPolicy_declared :
    (numberedPolicy.compile ⟨{}, .greatest⟩ .plain).outcome = .ok numberedRendered ∧
      (∀ rf ∈ numberedRendered, ∀ n, Text.isNumeric n = true → extendedDeclaration n ∈ rf.type.lifecycle rf.name →
        ¬StandardNumber (Text.value n)) ∧
      ¬StandardNumber (Text.value "4294967346") ∧ StandardNumber (Text.value "0050") := by
  have hcompile : (numberedPolicy.compile ⟨{}, .greatest⟩ .plain).outcome = .ok numberedRendered := by decide +kernel
  obtain ⟨hdeclared, hextended, hstandard⟩ := declared_numbers_iff hcompile
  refine ⟨hcompile, hdeclared.mpr ?_, ?_, ?_⟩
  · intro f hf n rest hoptions hn
    have hgroups : ∀ f ∈ numberedPolicy.filters, (f.header.optionsFor "cisco")[1]? = some "object-group" →
        (f.header.optionsFor "cisco").head? = some "200" := by decide +kernel
    have hname := hgroups f (List.mem_of_mem_filter hf)
    rw [show f.header.optionsFor "cisco" = n :: "object-group" :: rest from hoptions] at hname
    cases hname rfl
    decide +kernel
  · exact hextended (bareRendered ["4294967346", "extended"] "4294967346" .extended) (by decide +kernel) rfl
      (by decide +kernel)
  · exact hstandard (bareRendered ["0050", "standard"] "0050" .standard) (by decide +kernel) rfl (by decide +kernel)

/-- An object-group filter compiles under a number that an extended filter is refused. -/
theorem bareFilter_declares_standard_number :
    (Policy.compile ⟨{}, .greatest⟩ .plain ⟨[bareFilter ["50", "object-group"]]⟩).outcome =
        .ok [bareRendered ["50", "object-group"] "50" .objectGroup] ∧
      extendedDeclaration "50" ∈ FilterType.objectGroup.lifecycle "50" ∧ StandardNumber (Text.value "50") ∧
      (Policy.compile ⟨{}, .greatest⟩ .plain ⟨[bareFilter ["50", "extended"]]⟩).outcome =
        .error (.reservedNumber "50" .extended) := by
  refine ⟨?_, ?_, ?_, ?_⟩
  all_goals decide +kernel

end AccessList
