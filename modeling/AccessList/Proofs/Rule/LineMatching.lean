import AccessList.Proofs.Rule.LineReading

/-!
# What a printed line matches

A line is matched by its words: behind the keyword of an action and the words of a protocol stand the clauses. Protocols
may have any words, yet no line can be read for two of them. A word for an address counts as one half of a clause or as
both, no other word counts, and the clauses of a rule have four halves and start with one. So where the clauses begin
is settled by their end.
-/

namespace AccessList

open Text

/-! ## Halves -/

def halves (w : List Char) : Nat :=
  if w = "any".toList then 2
  else if w = "host".toList then 1
  else if '/' ∈ w then 2
  else if '.' ∈ w ∨ ':' ∈ w then 1
  else 0

def total (ws : List (List Char)) : Nat := (ws.map halves).sum

@[simp]
theorem total_nil : total [] = 0 := rfl

@[simp]
theorem total_cons (w : List Char) (ws : List (List Char)) : total (w :: ws) = halves w + total ws := List.sum_cons

theorem total_append (ws ws' : List (List Char)) : total (ws ++ ws') = total ws + total ws' := by
  rw [total, List.map_append, List.sum_append]
  rfl

theorem halves_address {w : List Char} {a : Address} (h : Address.ofChars? w = some a) : halves w = 1 := by
  have hspelled := Address.ofChars?_eq_some_iff.mp h
  have hmark : '.' ∈ w ∨ ':' ∈ w := by
    cases hspelled with
    | groups _ hcolon => exact .inr hcolon
    | quad _ _ hquad =>
      obtain ⟨ds, r, rfl, -⟩ := hquad.exists_dot
      exact .inl (by simp)
  have hany : w ≠ "any".toList := by
    rintro rfl
    exact absurd hmark (by decide)
  have hhost : w ≠ "host".toList := by
    rintro rfl
    exact absurd hmark (by decide)
  rw [halves, if_neg hany, if_neg hhost, if_neg hspelled.slash_not_mem, if_pos hmark]

theorem halves_slash {w : List Char} (h : '/' ∈ w) : halves w = 2 := by
  have hany : w ≠ "any".toList := by
    rintro rfl
    exact absurd h (by decide)
  have hhost : w ≠ "host".toList := by
    rintro rfl
    exact absurd h (by decide)
  rw [halves, if_neg hany, if_neg hhost, if_pos h]

theorem halves_digits {w : List Char} {n : Nat} (h : digits? 10 w = some n) : halves w = 0 := by
  have hno : ∀ c ∈ w, (digit? 10 c).isSome = true := fun c => isSome_of_mem_digits? h
  have hchar : ∀ c, (digit? 10 c).isSome = false → c ∉ w := by
    intro c hc hmem
    rw [hno c hmem] at hc
    cases hc
  have hany : w ≠ "any".toList := fun heq => hchar 'a' rfl (heq ▸ by decide)
  have hhost : w ≠ "host".toList := fun heq => hchar 'h' rfl (heq ▸ by decide)
  rw [halves, if_neg hany, if_neg hhost, if_neg (hchar '/' rfl), if_neg]
  exact not_or.mpr ⟨hchar '.' rfl, hchar ':' rfl⟩

theorem halves_keyword {table : List (Nat × String)} (htable : ∀ e ∈ table, halves e.2.toList = 0) {w : List Char}
    {n : Nat} (h : Keyword.read? table w = some n) : halves w = 0 := by
  rcases Option.or_eq_some_iff.mp h with h | ⟨-, h⟩
  · obtain ⟨e, he, -⟩ := Option.map_eq_some_iff.mp h
    have hw := List.find?_some he
    rw [← eq_of_beq hw]
    exact htable e (List.mem_of_find?_eq_some he)
  · exact halves_digits h

theorem halves_port {protocol : String} {w : List Char} {n : Nat}
    (h : Keyword.read? (Keyword.portTable protocol) w = some n) : halves w = 0 := by
  refine halves_keyword ?_ h
  have htcp : ∀ e ∈ Keyword.tcpPorts, halves e.2.toList = 0 := by decide +kernel
  have hudp : ∀ e ∈ Keyword.udpPorts, halves e.2.toList = 0 := by decide +kernel
  unfold Keyword.portTable
  split
  · exact htcp
  · split
    · exact hudp
    · exact nofun

theorem halves_icmpType {family : Family} {w : List Char} {n : Nat}
    (h : Keyword.read? (Keyword.icmpTable family) w = some n) : halves w = 0 := by
  refine halves_keyword ?_ h
  cases family <;> decide +kernel

/-! ## What each clause takes -/

variable {family : Family} {protocol : String} {ws rest : List (List Char)}

/-- The words of the clauses for an address. -/
inductive AddressPattern.Clause : List (List Char) → AddressPattern → Prop
  | any : Clause ["any".toList] .any
  | host {w : List Char} {a : Address} (ha : Address.ofChars? w = some a) : Clause ["host".toList, w] (.host a)
  | leading {w : List Char} {n : Address} {length : Nat} (hw : '/' ∈ w) : Clause [w] (.leading n length)
  | wildcard {w x : List Char} {a mask : Address} (ha : Address.ofChars? w = some a)
    (hmask : Address.ofChars? x = some mask) : Clause [w, x] (.wildcard a mask)

theorem AddressPattern.clause_of_readMasked {w : List Char} {n : Address} {a : AddressPattern}
    (hn : Address.ofChars? w = some n) (h : readMasked n ws = (a, rest)) (ha : a.isHost = false) :
    ∃ front, w :: ws = front ++ rest ∧ Clause front a := by
  cases ws with
  | nil =>
    cases h
    cases ha
  | cons x ws =>
    cases hx : Address.ofChars? x with
    | none =>
      rw [readMasked, hx] at h
      cases h
      cases ha
    | some mask =>
      rw [readMasked, hx] at h
      cases h
      exact ⟨[w, x], rfl, .wildcard hn hx⟩

theorem AddressPattern.clause_of_readClause? {a : AddressPattern} (h : readClause? ws = some (a, rest)) :
    ∃ front, ws = front ++ rest ∧ Clause front a := by
  obtain ⟨hread, hhost⟩ := Option.filter_eq_some_iff.mp h
  cases ws with
  | nil => cases hread
  | cons w ws =>
    rw [read?] at hread
    by_cases hany : w = "any".toList
    · rw [if_pos hany] at hread
      cases hread
      exact ⟨[w], rfl, hany ▸ .any⟩
    rw [if_neg hany] at hread
    by_cases hword : w = "host".toList
    · rw [if_pos hword] at hread
      cases ws with
      | nil => cases hread
      | cons x ws =>
        obtain ⟨address, hx, heq⟩ := Option.map_eq_some_iff.mp hread
        cases heq
        exact ⟨[w, x], rfl, hword ▸ .host hx⟩
    rw [if_neg hword] at hread
    by_cases hslash : '/' ∈ w
    · rw [if_pos hslash] at hread
      obtain ⟨p, -, heq⟩ := Option.map_eq_some_iff.mp hread
      cases heq
      exact ⟨[w], rfl, .leading hslash⟩
    · rw [if_neg hslash] at hread
      obtain ⟨n, hn, heq⟩ := Option.map_eq_some_iff.mp hread
      -- An address by itself would need the word `host`.
      have hbare : a.isHost = false := by
        rcases (Bool.or_eq_true ..).mp hhost with h | h
        · simpa using h
        · exact absurd (Option.some.inj (eq_of_beq h)) hword
      exact clause_of_readMasked hn heq hbare

theorem total_readClause {a : AddressPattern} (h : AddressPattern.readClause? ws = some (a, rest)) :
    total ws = 2 + total rest ∧ ∀ w ∈ ws.head?, halves w ≠ 0 := by
  obtain ⟨front, rfl, hclause⟩ := AddressPattern.clause_of_readClause? h
  have hany : halves ['a', 'n', 'y'] = 2 := rfl
  have hhost : halves ['h', 'o', 's', 't'] = 1 := rfl
  rw [total_append]
  cases hclause with
  | any => simp [hany]
  | host ha => simp [hhost, halves_address ha]
  | leading hw => simp [halves_slash hw]
  | wildcard ha hmask => simp [halves_address ha, halves_address hmask]

theorem total_readPort {p : Port} (h : Port.read? protocol ws = some (p, rest)) : total ws = total rest := by
  cases ws with
  | nil => cases h
  | cons w ws =>
    obtain ⟨n, hn, h⟩ := Option.bind_eq_some_iff.mp h
    obtain ⟨_, heq⟩ := Option.dite_none_right_eq_some.mp h
    cases heq
    rw [total_cons, halves_port hn, Nat.zero_add]

theorem total_readPorts {ports : Option PortRange} (h : PortRange.read? protocol ws = some (ports, rest)) :
    total ws = total rest := by
  cases ws with
  | nil =>
    cases h
    rfl
  | cons w ws =>
    rw [PortRange.read?] at h
    by_cases hsingle : w = "eq".toList
    · rw [if_pos hsingle] at h
      obtain ⟨⟨p, rest'⟩, hp, heq⟩ := Option.map_eq_some_iff.mp h
      cases heq
      have hw : halves w = 0 := by
        rw [hsingle]
        rfl
      rw [total_cons, hw, total_readPort hp, Nat.zero_add]
    rw [if_neg hsingle] at h
    by_cases hrange : w = "range".toList
    · rw [if_pos hrange] at h
      obtain ⟨⟨low, rest'⟩, hlow, h⟩ := Option.bind_eq_some_iff.mp h
      obtain ⟨⟨high, rest''⟩, hhigh, heq⟩ := Option.map_eq_some_iff.mp h
      cases heq
      have hw : halves w = 0 := by
        rw [hrange]
        rfl
      rw [total_cons, hw, total_readPort hlow, total_readPort hhigh, Nat.zero_add]
    · rw [if_neg hrange] at h
      cases h
      rfl

theorem total_readIcmpType {icmpType : Option Nat} (h : Keyword.readIcmpType? family ws = some (icmpType, rest)) :
    total ws = total rest := by
  cases ws with
  | nil =>
    cases h
    rfl
  | cons w ws =>
    rw [Keyword.readIcmpType?] at h
    split at h
    · cases h
      rfl
    · obtain ⟨n, hn, heq⟩ := Option.map_eq_some_iff.mp h
      cases heq
      rw [total_cons, halves_icmpType hn, Nat.zero_add]

theorem total_options {os : List RuleOption} (h : ws.mapM RuleOption.read? = some os) : total ws = 0 := by
  induction ws generalizing os with
  | nil => rfl
  | cons w ws ih =>
    rw [List.mapM_cons] at h
    obtain ⟨o, ho, h⟩ := Option.bind_eq_some_iff.mp h
    obtain ⟨os', hos, -⟩ := Option.bind_eq_some_iff.mp h
    have hw : o.word.toList = w := eq_of_beq (List.find?_some (p := fun o : RuleOption => o.word.toList == w) ho)
    have hhalves : halves w = 0 := by
      rw [← hw]
      cases o <;> rfl
    rw [total_cons, hhalves, ih hos]

/-! ## One reading -/

namespace RuleClauses

theorem total_read {c : RuleClauses} (h : read? family protocol ws = some c) :
    total ws = 4 ∧ ∀ w ∈ ws.head?, halves w ≠ 0 := by
  obtain ⟨⟨source, ws₁⟩, hsource, h⟩ := Option.bind_eq_some_iff.mp h
  obtain ⟨⟨sourcePorts, ws₂⟩, hsourcePorts, h⟩ := Option.bind_eq_some_iff.mp h
  obtain ⟨⟨destination, ws₃⟩, hdestination, h⟩ := Option.bind_eq_some_iff.mp h
  obtain ⟨⟨destinationPorts, ws₄⟩, hdestinationPorts, h⟩ := Option.bind_eq_some_iff.mp h
  obtain ⟨⟨icmpType, ws₅⟩, hicmpType, h⟩ := Option.bind_eq_some_iff.mp h
  obtain ⟨options, hoptions, -⟩ := Option.map_eq_some_iff.mp h
  obtain ⟨htotal, hhead⟩ := total_readClause hsource
  refine ⟨?_, hhead⟩
  rw [htotal, total_readPorts hsourcePorts, (total_readClause hdestination).1, total_readPorts hdestinationPorts,
    total_readIcmpType hicmpType, total_options hoptions]

/-- Of the words of a line, one end only reads as the clauses of a rule. -/
theorem eq_nil_of_read_append {protocol protocol' : String} {front : List (List Char)} {c c' : RuleClauses}
    (h : read? family protocol ws = some c) (h' : read? family protocol' (front ++ ws) = some c') : front = [] := by
  obtain ⟨htotal, -⟩ := total_read h
  obtain ⟨htotal', hhead⟩ := total_read h'
  rw [total_append, htotal] at htotal'
  cases front with
  | nil => rfl
  | cons w front =>
    have hw := hhead w rfl
    rw [total_cons] at htotal'
    omega

structure Matches (c : RuleClauses) (k : Packet) : Prop where
  source : c.source.Matches k.source
  destination : c.destination.Matches k.destination
  sourcePort : ∀ ports ∈ c.sourcePorts, k.sourcePort ∈ ports
  destinationPort : ∀ ports ∈ c.destinationPorts, k.destinationPort ∈ ports
  icmpCode : ∀ code ∈ c.icmpType, code = k.icmpCode

end RuleClauses

/-- The words of a line are those of an action, of a protocol and of the clauses of a rule. -/
def ReadsAs (family : Family) (line : String) (action : Action) (protocol : String) (c : RuleClauses) : Prop :=
  ∃ ws, words line.toList = words action.keyword.toList ++ (words protocol.toList ++ ws) ∧
    RuleClauses.read? family (neat protocol) ws = some c

/-- A device that takes a line for a rule finds a packet of the rule's protocol in its clauses. -/
def LineMatches (family : Family) (line : String) (k : Packet) : Prop :=
  ∃ action c, ReadsAs family line action k.protocol c ∧ c.Matches k

theorem Action.keyword_cancel {a a' : Action} {ws ws' : List (List Char)}
    (h : words a.keyword.toList ++ ws = words a'.keyword.toList ++ ws') : ws = ws' := by
  have hpermit : words "permit".toList = ["permit".toList] := by decide
  have hdeny : words "deny".toList = ["deny".toList] := by decide
  have hnext : words "! next".toList = ["!".toList, "next".toList] := by decide
  cases a <;> cases a' <;> simp_all [keyword]

theorem neat_congr {s s' : String} (h : words s.toList = words s'.toList) : neat s = neat s' := by
  rw [neat, neat, h]

namespace ExtendedRule

variable (family) (r : ExtendedRule) (k : Packet)

theorem readsAs_text : ReadsAs family (r.text family) r.action r.protocol r.clauses :=
  ⟨r.clauseWords family, r.words_text_eq family, r.read?_clauseWords family⟩

/-- The line of a rule reads as that rule only. -/
theorem readsAs_text_iff {action : Action} {protocol : String} {c : RuleClauses}
    (h : ReadsAs family (r.text family) action protocol c) :
    words r.protocol.toList = words protocol.toList ∧ c = r.clauses := by
  obtain ⟨ws, hwords, hread⟩ := h
  rw [words_text_eq] at hwords
  have hread' := r.read?_clauseWords family
  have hsame : words r.protocol.toList = words protocol.toList ∧ r.clauseWords family = ws := by
    rcases List.append_eq_append_iff.mp (Action.keyword_cancel hwords) with
      ⟨extra, hprotocol, hclauses⟩ | ⟨extra, hprotocol, hclauses⟩
    · rw [hclauses] at hread'
      obtain rfl := RuleClauses.eq_nil_of_read_append hread hread'
      exact ⟨by simpa using hprotocol.symm, hclauses⟩
    · rw [hclauses] at hread
      obtain rfl := RuleClauses.eq_nil_of_read_append hread' hread
      exact ⟨by simpa using hprotocol, hclauses.symm⟩
  obtain ⟨hprotocol, rfl⟩ := hsame
  rw [neat_congr hprotocol, hread] at hread'
  exact ⟨hprotocol, Option.some.inj hread'⟩

theorem lineMatches_text_iff :
    LineMatches family (r.text family) k ↔ words r.protocol.toList = words k.protocol.toList ∧ r.clauses.Matches k := by
  constructor
  · rintro ⟨action, c, h, hm⟩
    obtain ⟨hprotocol, rfl⟩ := r.readsAs_text_iff family h
    exact ⟨hprotocol, hm⟩
  · rintro ⟨hprotocol, hm⟩
    obtain ⟨ws, hwords, hread⟩ := r.readsAs_text family
    refine ⟨r.action, r.clauses, ⟨ws, ?_, ?_⟩, hm⟩
    · rw [hwords, hprotocol]
    · rw [← neat_congr hprotocol, hread]

end ExtendedRule

end AccessList
