import AccessList.Proofs.Compile.Silence

/-!
# Terms that an extended or inet6 filter leaves out

A term is left out where it is for other platforms, where ICMPv6 is all it is about and the filter is for IPv4, or where
a side that it declares takes no address. The renderer leaves out more: ICMPv6 among other protocols is enough.
-/

namespace AccessList

namespace Term

variable {t : Term} {family : Family} {platform : String}

theorem remaining_eq_nil_iff {side : Side} (hd : t.declared side ≠ []) :
    t.remaining side family = [] ↔ ∀ x, ¬t.Takes side family x := by
  have htakes : ∀ x, t.Takes side family x ↔ ∃ b ∈ t.remaining side family, x ∈ b.block := fun x => by
    rw [remaining_covered, Takes, or_iff_right hd]
  simp only [htakes]
  constructor
  · intro h x hx
    obtain ⟨b, hb, -⟩ := hx
    rw [h] at hb
    cases hb
  · intro h
    cases hr : t.remaining side family with
    | nil => rfl
    | cons b bs => exact absurd ⟨b, hr ▸ List.mem_cons_self .., b.block.address_mem⟩ (h b.block.address)

theorem exhausts_iff_takes : t.Exhausts family ↔ ∃ side, t.declared side ≠ [] ∧ ∀ x, ¬t.Takes side family x :=
  exists_congr fun _ => and_congr_right remaining_eq_nil_iff

/-- Whether a term has no place in a filter of a family. -/
inductive Misplaced (t : Term) (platform : String) (family : Family) : Prop
  | otherPlatform (h : t.excludes platform = true)
  | otherFamily (hfamily : family = .inet) (hne : t.protocols ≠ []) (h : ∀ p ∈ t.protocols, p = "icmpv6")
  | noAddress (hv : t.verbatims = []) (side : Side) (hd : t.declared side ≠ []) (h : ∀ x, ¬t.Takes side family x)

def MixesIcmp6 (t : Term) (family : Family) : Prop :=
  family = .inet ∧ "icmpv6" ∈ t.protocols ∧ ∃ p ∈ t.protocols, p ≠ "icmpv6"

theorem icmp6_cases (h : "icmpv6" ∈ t.protocols) :
    (∃ p ∈ t.protocols, p ≠ "icmpv6") ∨ t.protocols ≠ [] ∧ ∀ p ∈ t.protocols, p = "icmpv6" := by
  by_cases hother : ∃ p ∈ t.protocols, p ≠ "icmpv6"
  · exact .inl hother
  · refine .inr ⟨List.ne_nil_of_mem h, fun p hp => ?_⟩
    exact Classical.byContradiction fun hne => hother ⟨p, hp, hne⟩

theorem misplaced_iff : t.Misplaced platform family ↔
    t.excludes platform = true ∨ (family = .inet ∧ t.protocols ≠ [] ∧ ∀ p ∈ t.protocols, p = "icmpv6") ∨
      t.verbatims = [] ∧ t.Exhausts family := by
  rw [exhausts_iff_takes]
  constructor
  · intro h
    cases h with
    | otherPlatform hx => exact .inl hx
    | otherFamily hfamily hne hall => exact .inr (.inl ⟨hfamily, hne, hall⟩)
    | noAddress hv side hd hside => exact .inr (.inr ⟨hv, side, hd, hside⟩)
  · intro h
    rcases h with hx | ⟨hfamily, hne, hall⟩ | ⟨hv, side, hd, hside⟩
    · exact .otherPlatform hx
    · exact .otherFamily hfamily hne hall
    · exact .noAddress hv side hd hside

end Term

namespace Scope

variable {s : Scope} {family : Family} {t : Term} {rendering : Rendering ExtendedRule}

theorem extended_omits_iff (h : s.extended family t = .ok rendering) :
    rendering.lines (ExtendedRule.text family) = [] ↔ t.Misplaced s.platform family ∨ t.MixesIcmp6 family := by
  rw [extended_lines_eq_nil_iff h, Term.misplaced_iff]
  constructor
  · intro hempty
    rcases hempty with hx | ⟨hfamily, h6⟩ | hside
    · exact .inl (.inl hx)
    · rcases Term.icmp6_cases h6 with hother | hall
      · exact .inr ⟨hfamily, h6, hother⟩
      · exact .inl (.inr (.inl ⟨hfamily, hall⟩))
    · exact .inl (.inr (.inr hside))
  · intro hwhy
    rcases hwhy with (hx | ⟨hfamily, hne, hall⟩ | hside) | ⟨hfamily, h6, -⟩
    · exact .inl hx
    · obtain ⟨p, hp⟩ := List.exists_mem_of_ne_nil _ hne
      exact .inr (.inl ⟨hfamily, hall p hp ▸ hp⟩)
    · exact .inr (.inr hside)
    · exact .inr (.inl ⟨hfamily, h6⟩)

/-- A term that renders without a fault is left out where it is misplaced, and where it names ICMPv6 beside other
protocols in a filter for IPv4. So the rendering is empty just for misplaced terms unless the term names them so and is
not misplaced. -/
theorem omitted_terms_misplaced_iff (h : s.extended family t = .ok rendering) :
    (t.Misplaced s.platform family → rendering.lines (ExtendedRule.text family) = []) ∧
      ((rendering.lines (ExtendedRule.text family) = [] ↔ t.Misplaced s.platform family) ↔
        (t.MixesIcmp6 family → t.Misplaced s.platform family)) := by
  rw [extended_omits_iff h]
  refine ⟨.inl, fun hiff hmixes => hiff.mp (.inr hmixes), fun himp => ⟨?_, .inl⟩⟩
  intro hwhy
  rcases hwhy with hmisplaced | hmixes
  · exact hmisplaced
  · exact himp hmixes

def probeTerm : Term where
  name := "probe"
  actions := [.accept]
  protocols := ["tcp", "icmpv6"]

theorem probeTerm_not_misplaced (family : Family) : ¬probeTerm.Misplaced plain.platform family := by
  rw [Term.misplaced_iff]
  rintro (hx | ⟨-, -, hall⟩ | ⟨-, side, hd, -⟩)
  · exact absurd hx (by decide)
  · exact absurd (hall "tcp" (by decide)) (by decide)
  · cases side <;> exact hd rfl

theorem probeTerm_rendered :
    ∃ rendering, plain.extended .inet6 probeTerm = .ok rendering ∧
      rendering.lines (ExtendedRule.text .inet6) =
        ["", " remark probe", " permit tcp any any", " permit icmpv6 any any"] ∧
      (rendering.lines (ExtendedRule.text .inet6) = [] ↔ probeTerm.Misplaced plain.platform .inet6) := by
  have h : plain.extended .inet6 probeTerm = .ok (.block (plain.extendedRemarks probeTerm)
      (.rules (probeTerm.extendedRules .inet6 .name .accept [.any] [.any] [none]))) :=
    extended_eq_iff.mpr (.rules rfl (by decide) rfl rfl rfl rfl rfl)
  refine ⟨_, h, by decide +kernel, (omitted_terms_misplaced_iff h).2.mpr ?_⟩
  rintro ⟨⟨⟩, -⟩

/-- The extended filter leaves out TCP along with ICMPv6. -/
theorem probeTerm_omitted :
    probeTerm.actions ≠ [] ∧ ∃ rendering, plain.extended .inet probeTerm = .ok rendering ∧
      rendering.lines (ExtendedRule.text .inet) = [] ∧ ¬probeTerm.Misplaced plain.platform .inet :=
  ⟨by decide, .suppressed .icmp6, rfl, rfl, probeTerm_not_misplaced .inet⟩

end Scope

end AccessList
