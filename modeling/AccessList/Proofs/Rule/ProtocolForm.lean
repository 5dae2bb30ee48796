import AccessList.Compile
import AccessList.Proofs.Traversal
import AccessList.Proofs.Rule.LineParts
import AccessList.Proofs.Rule.Matching
import AccessList.Proofs.Rule.Outcome

/-!
# Protocols by name and by number

A term comes to the same rules whether they write protocols by name or by number, but for the word of the protocol.
Ports and options go by what that word denotes, and both words of a protocol denote the same.
-/

namespace AccessList

/-! ## Both words of a protocol -/

inductive Term.ProtocolPair (t : Term) (family : Family) : String → String → Prop
  | every (h : t.protocols = []) : ProtocolPair t family family.protocolWord family.protocolWord
  | hopByHop (h : "hop-by-hop" ∈ t.protocols) : ProtocolPair t family "hbh" "hbh"
  | known {p : String} {n : Nat} (hp : p ∈ t.protocols) (hn : Protocol.number? p = some n) :
    ProtocolPair t family p (toString n)
  | unknown {p : String} (hp : p ∈ t.protocols) (hne : p ≠ "hop-by-hop") (hn : Protocol.number? p = none) :
    ProtocolPair t family p p

theorem Protocol.mem_of_number? {p : String} {n : Nat} (h : number? p = some n) : (p, n) ∈ numbers := by
  unfold number? at h
  obtain ⟨front, back, heq, -⟩ := List.lookup_eq_some_iff.mp h
  rw [heq]
  exact List.mem_append_right _ (List.mem_cons_self ..)

theorem Protocol.denotes_number {p q : String} {n : Nat} (hn : number? p = some n) (hq : q ∈ ["tcp", "udp"]) :
    denotes (toString n) q = denotes p q := by
  have htable : ∀ e ∈ numbers, ∀ q ∈ ["tcp", "udp"], denotes (toString e.2) q = denotes e.1 q := by decide +kernel
  exact htable (p, n) (mem_of_number? hn) q hq

variable {t : Term} {family : Family} {w w' : String}

theorem Term.ProtocolPair.denotes_eq (h : t.ProtocolPair family w w') {q : String} (hq : q ∈ ["tcp", "udp"]) :
    Protocol.denotes w' q = Protocol.denotes w q := by
  cases h with
  | every => rfl
  | hopByHop => rfl
  | known _ hn => exact Protocol.denotes_number hn hq
  | unknown => rfl

theorem Term.protocolWords_pair :
    List.Forall₂ (t.ProtocolPair family) (t.protocolWords family .name) (t.protocolWords family .number) := by
  unfold Term.protocolWords
  by_cases hnone : t.protocols = []
  · simp only [hnone, List.isEmpty_nil, ite_true]
    exact .cons (.every hnone) .nil
  · simp only [List.isEmpty_iff, hnone, ite_false, List.forall₂_map_left_iff, List.forall₂_map_right_iff]
    apply List.forall₂_same.mpr
    intro p hp
    unfold ProtocolForm.word
    by_cases hhop : p = "hop-by-hop"
    · rw [if_pos hhop, if_pos hhop]
      exact .hopByHop (hhop ▸ hp)
    · rw [if_neg hhop, if_neg hhop]
      cases hn : Protocol.number? p with
      | none => exact .unknown hp hhop hn
      | some n => exact .known hp hn

/-! ## The rest of a line -/

theorem Keyword.port_eq (h : t.ProtocolPair family w w') (p : Port) : port w' p = port w p := by
  unfold port
  rw [h.denotes_eq (by simp), h.denotes_eq (by simp)]

theorem ExtendedRule.portClause_eq (h : t.ProtocolPair family w w') (ports : Option PortRange) :
    portClause w' ports = portClause w ports := by
  cases ports with
  | none => rfl
  | some r => simp only [portClause, Keyword.port_eq h]

theorem RuleOption.filter_applies_eq (h : t.ProtocolPair family w w') (os : List RuleOption) :
    os.filter (·.applies w') = os.filter (·.applies w) := by
  simp only [applies, h.denotes_eq (List.mem_cons_of_mem _ (List.mem_singleton_self _))]

/-- Two rules of a term differ in the word of the protocol only, and so do their lines. -/
structure SameRules {ρ : Type} (parts : ρ → RuleParts) (write : ρ → String) (t : Term) (family : Family)
    (r r' : ρ) : Prop where
  words : t.ProtocolPair family (parts r).protocol (parts r').protocol
  rest : parts r' = { parts r with protocol := (parts r').protocol }
  lines : write r = (parts r).line ∧ write r' = (parts r').line

theorem ExtendedRule.sameRules {r : ExtendedRule} (h : t.ProtocolPair family r.protocol w') :
    SameRules (parts family) (text family) t family r { r with protocol := w' } := by
  refine ⟨h, ?_, text_eq_line _ _, text_eq_line _ _⟩
  simp only [parts, applied, portClause_eq h, RuleOption.filter_applies_eq h]

theorem GroupRule.sameRules {r : GroupRule} (h : t.ProtocolPair family r.protocol w') :
    SameRules parts text t family r { r with protocol := w' } := by
  refine ⟨h, ?_, text_eq_line _, text_eq_line _⟩
  simp only [parts, RuleOption.filter_applies_eq h]

/-! ## The product -/

theorem forall₂_flatMap_same {α γ δ : Type} {P : γ → δ → Prop} {as : List α} {f : α → List γ} {g : α → List δ}
    (hfg : ∀ a, List.Forall₂ P (f a) (g a)) : List.Forall₂ P (as.flatMap f) (as.flatMap g) := by
  have hsame : List.Forall₂ (· = ·) as as := List.forall₂_same.mpr fun _ _ => rfl
  refine List.rel_flatMap hsame fun a b hab => ?_
  exact hab ▸ hfg a

theorem Term.extendedRules_same (action : Action) (sources destinations : List Endpoint)
    (icmpTypes : List (Option Nat)) :
    List.Forall₂ (SameRules (ExtendedRule.parts family) (ExtendedRule.text family) t family)
      (t.extendedRules family .name action sources destinations icmpTypes)
      (t.extendedRules family .number action sources destinations icmpTypes) := by
  unfold Term.extendedRules
  apply forall₂_flatMap_same; intro source
  apply forall₂_flatMap_same; intro destination
  apply forall₂_flatMap_same; intro sourcePorts
  apply forall₂_flatMap_same; intro destinationPorts
  refine List.rel_flatMap protocolWords_pair fun w w' hpair => ?_
  rw [List.forall₂_map_left_iff, List.forall₂_map_right_iff]
  exact List.forall₂_same.mpr fun icmpType _ => ExtendedRule.sameRules hpair

theorem Term.groupRules_same (action : Action) (source destination : AddressGroup) :
    List.Forall₂ (SameRules GroupRule.parts GroupRule.text t .inet) (t.groupRules .name action source destination)
      (t.groupRules .number action source destination) := by
  unfold Term.groupRules
  apply forall₂_flatMap_same; intro sourcePorts
  apply forall₂_flatMap_same; intro destinationPorts
  rw [List.forall₂_map_left_iff, List.forall₂_map_right_iff]
  exact protocolWords_pair.imp fun w w' hpair => GroupRule.sameRules hpair

/-! ## Renderings -/

inductive Rendering.Alike {ρ : Type} (R : ρ → ρ → Prop) : Rendering ρ → Rendering ρ → Prop
  | suppressed (why : Suppression) : Alike R (.suppressed why) (.suppressed why)
  | verbatim (remarks texts : List String) :
    Alike R (.block remarks (.verbatim texts)) (.block remarks (.verbatim texts))
  | rules (remarks : List String) {rs rs' : List ρ} (h : List.Forall₂ R rs rs') :
    Alike R (.block remarks (.rules rs)) (.block remarks (.rules rs'))

theorem Rendering.Alike.suppression?_eq {ρ : Type} {R : ρ → ρ → Prop} {r r' : Rendering ρ} (h : r.Alike R r') :
    r'.suppression? = r.suppression? := by
  cases h with
  | suppressed => rfl
  | verbatim => rfl
  | rules => rfl

theorem Rendering.Alike.lines {ρ : Type} {R : ρ → ρ → Prop} {r r' : Rendering ρ} (h : r.Alike R r')
    (write : ρ → String) :
    List.Forall₂ (fun line line' => line = line' ∨ ∃ a a', R a a' ∧ line = write a ∧ line' = write a') (r.lines write)
      (r'.lines write) := by
  have hsame : ∀ texts : List String, List.Forall₂ (fun line line' => line = line' ∨
      ∃ a a', R a a' ∧ line = write a ∧ line' = write a') texts texts := fun texts =>
    List.forall₂_same.mpr fun _ _ => .inl rfl
  cases h with
  | suppressed => exact .nil
  | verbatim => exact hsame _
  | rules remarks h =>
    apply List.rel_append (hsame remarks)
    rw [List.forall₂_map_left_iff, List.forall₂_map_right_iff]
    exact h.imp fun a a' haa' => .inr ⟨a, a', haa', rfl, rfl⟩

/-! ## Both forms -/

namespace Scope

def withForm (s : Scope) (form : ProtocolForm) : Scope :=
  { s with config := { s.config with settings := { s.config.settings with protocolForm := form } } }

def AlikeOutcomes {ρ : Type} (R : ρ → ρ → Prop) (x x' : Except CompileError (Rendering ρ)) : Prop :=
  (∃ e, x = .error e ∧ x' = .error e) ∨ ∃ r r', x = .ok r ∧ x' = .ok r' ∧ r.Alike R r'

variable {s : Scope} {family : Family} {t : Term}

theorem extended_alike :
    AlikeOutcomes (SameRules (ExtendedRule.parts family) (ExtendedRule.text family) t family)
      ((s.withForm .name).extended family t) ((s.withForm .number).extended family t) := by
  generalize houtcome : (s.withForm .name).extended family t = outcome
  -- Nothing that is asked before the rules goes by the form.
  cases extended_eq_iff.mp houtcome with
  | otherPlatform hx => exact .inr ⟨_, _, rfl, extended_eq_iff.mpr (.otherPlatform hx), .suppressed _⟩
  | icmp6 hx h6 => exact .inr ⟨_, _, rfl, extended_eq_iff.mpr (.icmp6 hx h6), .suppressed _⟩
  | verbatim hx h6 hv => exact .inr ⟨_, _, rfl, extended_eq_iff.mpr (.verbatim hx h6 hv), .verbatim _ _⟩
  | noAction hx h6 hv ha => exact .inl ⟨_, rfl, extended_eq_iff.mpr (.noAction hx h6 hv ha)⟩
  | noSources hx h6 hv ha hs =>
    exact .inr ⟨_, _, rfl, extended_eq_iff.mpr (.noSources hx h6 hv ha hs), .suppressed _⟩
  | noDestinations hx h6 hv ha hs hd =>
    exact .inr ⟨_, _, rfl, extended_eq_iff.mpr (.noDestinations hx h6 hv ha hs hd), .suppressed _⟩
  | badTypes hx h6 hv ha hs hd hi => exact .inl ⟨_, rfl, extended_eq_iff.mpr (.badTypes hx h6 hv ha hs hd hi)⟩
  | @rules action sources destinations icmpTypes hx h6 hv ha hs hd hi =>
    have hrules := @Term.extendedRules_same t family action sources destinations icmpTypes
    exact .inr ⟨_, _, rfl, extended_eq_iff.mpr (.rules hx h6 hv ha hs hd hi), .rules _ hrules⟩

theorem objectGroup_alike :
    AlikeOutcomes (SameRules GroupRule.parts GroupRule.text t .inet) ((s.withForm .name).objectGroup t)
      ((s.withForm .number).objectGroup t) := by
  generalize houtcome : (s.withForm .name).objectGroup t = outcome
  cases objectGroup_eq_iff.mp houtcome with
  | otherPlatform hx => exact .inr ⟨_, _, rfl, objectGroup_eq_iff.mpr (.otherPlatform hx), .suppressed _⟩
  | verbatim hx hv => exact .inr ⟨_, _, rfl, objectGroup_eq_iff.mpr (.verbatim hx hv), .verbatim _ _⟩
  | noGroup hx hv hside => exact .inr ⟨_, _, rfl, objectGroup_eq_iff.mpr (.noGroup hx hv hside), .suppressed _⟩
  | noAction hx hv hs hd ha => exact .inl ⟨_, rfl, objectGroup_eq_iff.mpr (.noAction hx hv hs hd ha)⟩
  | @rules action source destination hx hv hs hd ha =>
    have hrules := @Term.groupRules_same t action source destination
    exact .inr ⟨_, _, rfl, objectGroup_eq_iff.mpr (.rules hx hv hs hd ha), .rules _ hrules⟩

/-- Two lines are equal, or rule lines that differ in the word of the protocol only. -/
def SameLines (type : FilterType) (t : Term) (line line' : String) : Prop :=
  line = line' ∨ ∃ (parts : RuleParts) (w' : String), t.ProtocolPair type.family parts.protocol w' ∧
    line = parts.line ∧ line' = RuleParts.line { parts with protocol := w' }

theorem sameLines_of_alike {ρ : Type} {parts : ρ → RuleParts} {write : ρ → String} {type : FilterType}
    {x x' : Except CompileError (Rendering ρ)} (h : AlikeOutcomes (SameRules parts write t type.family) x x') :
    (∃ e, x.map (fun r => (r.suppression?, r.lines write)) = .error e ∧
      x'.map (fun r => (r.suppression?, r.lines write)) = .error e) ∨
    ∃ why lines lines', x.map (fun r => (r.suppression?, r.lines write)) = .ok (why, lines) ∧
      x'.map (fun r => (r.suppression?, r.lines write)) = .ok (why, lines') ∧
      List.Forall₂ (SameLines type t) lines lines' := by
  rcases h with ⟨e, rfl, rfl⟩ | ⟨r, r', rfl, rfl, h⟩
  · exact .inl ⟨e, rfl, rfl⟩
  · refine .inr ⟨r.suppression?, r.lines write, r'.lines write, rfl, ?_, ?_⟩
    · rw [← h.suppression?_eq]
      rfl
    · refine (h.lines write).imp fun line line' hline => ?_
      rcases hline with hline | ⟨a, a', hrules, rfl, rfl⟩
      · exact .inl hline
      · refine .inr ⟨parts a, (parts a').protocol, hrules.words, hrules.lines.1, ?_⟩
        rw [hrules.lines.2, ← hrules.rest]

/-- Protocols by name and by number give the same error, or renderings with the same remarks and text in which rules
differ in the word of the protocol only. So do their lines, one by one. -/
theorem forms_differ_in_protocol (s : Scope) (t : Term) :
    (∀ family, AlikeOutcomes (SameRules (ExtendedRule.parts family) (ExtendedRule.text family) t family)
      ((s.withForm .name).extended family t) ((s.withForm .number).extended family t)) ∧
    AlikeOutcomes (SameRules GroupRule.parts GroupRule.text t .inet) ((s.withForm .name).objectGroup t)
      ((s.withForm .number).objectGroup t) ∧
    ∀ type ∈ [FilterType.extended, .inet6, .objectGroup],
      (∃ e, (s.withForm .name).rendered type t = .error e ∧ (s.withForm .number).rendered type t = .error e) ∨
      ∃ why lines lines', (s.withForm .name).rendered type t = .ok (why, lines) ∧
        (s.withForm .number).rendered type t = .ok (why, lines') ∧ List.Forall₂ (SameLines type t) lines lines' := by
  refine ⟨fun family => extended_alike, objectGroup_alike, fun type htype => ?_⟩
  cases type with
  | standard => simp at htype
  | extended => exact @sameLines_of_alike t _ _ _ .extended _ _ extended_alike
  | objectGroup => exact @sameLines_of_alike t _ _ _ .objectGroup _ _ objectGroup_alike
  | inet6 => exact @sameLines_of_alike t _ _ _ .inet6 _ _ extended_alike

def domainTerm : Term where
  name := "dns"
  actions := [.accept]
  protocols := ["tcp", "udp", "gre", "hop-by-hop", "bogus"]
  sourcePorts := [.single ⟨53, by decide⟩]
  options := ["established"]

def domainLines (tcp udp gre : String) : List String :=
  ["", " remark dns", " permit " ++ tcp ++ " any eq domain any established", " permit " ++ udp ++ " any eq domain any",
    " permit " ++ gre ++ " any eq 53 any established", " permit hbh any eq 53 any established",
    " permit bogus any eq 53 any established"]

theorem domainTerm_forms :
    rendered (withForm ⟨"edge", ⟨{}, .greatest⟩, .plain⟩ .name) .extended domainTerm =
        .ok (none, domainLines "tcp" "udp" "gre") ∧
      rendered (withForm ⟨"edge", ⟨{}, .greatest⟩, .plain⟩ .number) .extended domainTerm =
        .ok (none, domainLines "6" "17" "47") ∧
      List.Forall₂ (SameLines .extended domainTerm) (domainLines "tcp" "udp" "gre") (domainLines "6" "17" "47") := by
  have hname : rendered (withForm ⟨"edge", ⟨{}, .greatest⟩, .plain⟩ .name) .extended domainTerm =
      .ok (none, domainLines "tcp" "udp" "gre") := by decide +kernel
  have hnumber : rendered (withForm ⟨"edge", ⟨{}, .greatest⟩, .plain⟩ .number) .extended domainTerm =
      .ok (none, domainLines "6" "17" "47") := by decide +kernel
  obtain ⟨-, -, hlines⟩ := forms_differ_in_protocol ⟨"edge", ⟨{}, .greatest⟩, .plain⟩ domainTerm
  rcases hlines .extended (by simp) with ⟨e, he, -⟩ | ⟨why, lines, lines', h, h', hsame⟩
  · rw [hname] at he
    cases he
  · rw [hname] at h
    rw [hnumber] at h'
    cases h
    cases h'
    exact ⟨hname, hnumber, hsame⟩

end Scope

end AccessList
