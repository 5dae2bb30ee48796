import AccessList.Proofs.Net.AddressClause
import AccessList.Proofs.Rule.LineParts
import AccessList.Proofs.Rule.Matching

/-!
# Rule lines read back

Each part of a rule line is read in front of any rest that does not start such a part itself. A line then has one
reading, though parts that are missing leave no word: the words `eq` and `range` announce ports, no keyword of a table
is a number or a word of another part, and an address tells by its first word how long it is.
-/

namespace AccessList

/-! ## Keywords -/

namespace Keyword

def read? (table : List (Nat × String)) (w : List Char) : Option Nat :=
  ((table.find? fun e => e.2.toList == w).map Prod.fst).or (Text.digits? 10 w)

/-- Whether the keywords of a table are single words, none of them a number and no two alike. -/
def Readable (table : List (Nat × String)) : Prop :=
  ∀ e ∈ table, Text.words e.2.toList = [e.2.toList] ∧ Text.digits? 10 e.2.toList = none ∧
    table.find? (fun e' => e'.2.toList == e.2.toList) = some e

instance (table : List (Nat × String)) : Decidable (Readable table) := inferInstanceAs (Decidable (∀ _ ∈ _, _))

def portTable (protocol : String) : List (Nat × String) :=
  if Protocol.denotes protocol "tcp" then tcpPorts
  else if Protocol.denotes protocol "udp" then udpPorts
  else []

def icmpTable : Family → List (Nat × String)
  | .inet => icmpTypes
  | .inet6 => icmp6Types

theorem port_eq_ofNumber (protocol : String) (p : Port) : port protocol p = ofNumber (portTable protocol) p := by
  unfold port portTable
  split
  · rfl
  · split <;> rfl

/-- A protocol that has keywords is one word. -/
theorem neat_of_denotes {protocol name : String} (hname : name ∈ ["tcp", "udp"])
    (h : Protocol.denotes protocol name = true) : Text.neat protocol = protocol := by
  have hneat : ∀ name ∈ ["tcp", "udp"], Text.neat name = name ∧ (Protocol.number? name).isSome = true := by
    decide +kernel
  obtain ⟨hself, hnumber⟩ := hneat name hname
  obtain ⟨n, hn⟩ := Option.isSome_iff_exists.mp hnumber
  rw [Protocol.denotes, hn, Bool.or_eq_true, beq_iff_eq, beq_iff_eq] at h
  rcases h with rfl | h
  · exact hself
  · obtain ⟨-, sign, ds, hsign, hprotocol, hdigits⟩ := Text.unsigned?_eq_some_iff.mp h
    have hne : protocol.toList ≠ [] := by
      rw [hprotocol]
      rintro hnil
      rw [(List.append_eq_nil_iff.mp hnil).2] at hdigits
      cases hdigits
    have hblank : ∀ c ∈ protocol.toList, ¬Text.isBlank c = true := by
      intro c hc
      rw [hprotocol] at hc
      rcases List.mem_append.mp hc with hc | hc
      · rcases hsign with rfl | rfl
        · cases hc
        · rw [List.mem_singleton.mp hc]
          decide
      · simp [Text.not_blank_of_isDigit (Text.isDigit_of_digit? (Text.isSome_of_mem_digits? hdigits hc))]
    apply String.toList_inj.mp
    rw [Text.toList_neat, Text.words_of_no_blank hne hblank, List.intercalate_singleton]

/-- Spaces around a protocol at most take its keywords away. -/
theorem portTable_neat (protocol : String) :
    portTable protocol = portTable (Text.neat protocol) ∨ portTable protocol = [] := by
  by_cases htcp : Protocol.denotes protocol "tcp" = true
  · rw [neat_of_denotes (by simp) htcp]
    exact .inl rfl
  by_cases hudp : Protocol.denotes protocol "udp" = true
  · rw [neat_of_denotes (by simp) hudp]
    exact .inl rfl
  · exact .inr (by rw [portTable, if_neg htcp, if_neg hudp])

theorem icmpType_eq_ofNumber (family : Family) (n : Nat) : icmpType family n = ofNumber (icmpTable family) n := by
  cases family <;> rfl

theorem readable_portTable (protocol : String) : Readable (portTable protocol) := by
  have htcp : Readable tcpPorts := by decide +kernel
  have hudp : Readable udpPorts := by decide +kernel
  unfold portTable
  split
  · exact htcp
  · split
    · exact hudp
    · exact nofun

theorem readable_icmpTable (family : Family) : Readable (icmpTable family) := by
  cases family <;> decide +kernel

theorem ofNumber_cases (table : List (Nat × String)) (n : Nat) :
    (n, ofNumber table n) ∈ table ∨ ofNumber table n = toString n := by
  unfold ofNumber
  cases h : table.lookup n with
  | none => exact .inr rfl
  | some name =>
    obtain ⟨front, back, heq, -⟩ := List.lookup_eq_some_iff.mp h
    rw [heq]
    exact .inl (List.mem_append_right _ (List.mem_cons_self ..))

section
variable {table : List (Nat × String)} (h : Readable table) (n : Nat)
include h

theorem read?_toString : read? table (toString n).toList = some n := by
  have hread : Text.digits? 10 (toString n).toList = some n := by
    simpa using Text.digits?_toDigits (b := 10) (by decide) (by decide) n
  have hnone : table.find? (fun e => e.2.toList == (toString n).toList) = none := by
    rw [List.find?_eq_none]
    intro e he heq
    obtain ⟨-, hno, -⟩ := h e he
    rw [eq_of_beq heq, hread] at hno
    cases hno
  rw [read?, hnone, hread]
  rfl

theorem read?_ofNumber : read? table (ofNumber table n).toList = some n := by
  rcases ofNumber_cases table n with hmem | hdigits
  · obtain ⟨-, -, hfind⟩ := h _ hmem
    rw [read?, hfind]
    rfl
  · rw [hdigits, read?_toString h]

theorem words_ofNumber : Text.words (ofNumber table n).toList = [(ofNumber table n).toList] := by
  rcases ofNumber_cases table n with hmem | hdigits
  · exact (h _ hmem).1
  · have htext : (toString n).toList = Nat.toDigits 10 n := Nat.toList_repr
    rw [hdigits, htext]
    refine Text.words_of_no_blank Nat.toDigits_ne_nil fun c hc => ?_
    simp [Text.not_blank_of_isDigit (Nat.isDigit_of_mem_toDigits (by decide) (by decide) hc)]

end

end Keyword

/-! ## Options -/

namespace RuleOption

def read? (w : List Char) : Option RuleOption := [established, log].find? fun o => o.word.toList == w

theorem read?_word (o : RuleOption) : read? o.word.toList = some o := by cases o <;> decide

theorem mapM_read? (os : List RuleOption) : (os.map (·.word.toList)).mapM read? = some os := by
  induction os with
  | nil => rfl
  | cons o os ih => simp [read?_word, ih]

end RuleOption

/-! ## Addresses -/

namespace AddressPattern

def isHost : AddressPattern → Bool
  | host _ => true
  | _ => false

/-- The clause of a side at the front of the words of a line. An address by itself comes behind the word for it. -/
def readClause? (ws : List (List Char)) : Option (AddressPattern × List (List Char)) :=
  (read? ws).filter fun (a, _) => !a.isHost || ws.head? == some "host".toList

theorem readClause?_text (a : AddressPattern) (h : a.Fits) (ws : List (List Char)) :
    readClause? (Text.words (a.text false).toList ++ ws) = some (a, ws) := by
  rw [readClause?, read?_text a h, Option.filter_some]
  cases a with
  | host a => simp [words_host]
  | any | wildcard | leading => rfl

end AddressPattern

/-! ## Ports -/

def Port.read? (protocol : String) : List (List Char) → Option (Port × List (List Char))
  | [] => none
  | w :: ws =>
    (Keyword.read? (Keyword.portTable protocol) w).bind fun n =>
      if h : n < 65536 then some (⟨n, h⟩, ws) else none

/-- A line has the words of a protocol, not its spaces. -/
theorem Port.read?_port (protocol : String) (p : Port) (ws : List (List Char)) :
    Port.read? (Text.neat protocol) (Text.words (Keyword.port protocol p).toList ++ ws) = some (p, ws) := by
  have htable := Keyword.readable_portTable (Text.neat protocol)
  have hread : Keyword.read? (Keyword.portTable (Text.neat protocol))
      (Keyword.ofNumber (Keyword.portTable protocol) p).toList = some p.val := by
    rcases Keyword.portTable_neat protocol with h | h
    · rw [h, Keyword.read?_ofNumber htable]
    · rw [h]
      exact Keyword.read?_toString htable p
  rw [Keyword.port_eq_ofNumber, Keyword.words_ofNumber (Keyword.readable_portTable protocol), List.singleton_append,
    Port.read?, hread, Option.bind_some, dif_pos p.isLt]

def StartsPorts (w : List Char) : Prop := w = "eq".toList ∨ w = "range".toList

def PortRange.read? (protocol : String) : List (List Char) → Option (Option PortRange × List (List Char))
  | [] => some (none, [])
  | w :: ws =>
    if w = "eq".toList then (Port.read? protocol ws).map fun (p, ws) => (some (.single p), ws)
    else if w = "range".toList then
      (Port.read? protocol ws).bind fun (low, ws) =>
        (Port.read? protocol ws).map fun (high, ws) => (some ⟨low, high⟩, ws)
    else some (none, w :: ws)

theorem PortRange.read?_of_not_startsPorts (protocol : String) {ws : List (List Char)}
    (h : ∀ w ∈ ws.head?, ¬StartsPorts w) : read? protocol ws = some (none, ws) := by
  cases ws with
  | nil => rfl
  | cons w ws =>
    obtain ⟨heq, hrange⟩ := not_or.mp (h w rfl)
    rw [read?, if_neg heq, if_neg hrange]

theorem ExtendedRule.words_single (protocol : String) (p : Port) :
    Text.words (portText protocol (some (.single p))).toList =
      "eq".toList :: Text.words (Keyword.port protocol p).toList := by
  have htext : (portText protocol (some (.single p))).toList =
      "eq".toList ++ ' ' :: (Keyword.port protocol p).toList := by
    simp [portText, PortRange.single, PortRange.isSingle]
  rw [htext, Text.words_append_blank _ _ rfl]
  rfl

theorem ExtendedRule.words_range (protocol : String) {r : PortRange} (h : r.low ≠ r.high) :
    Text.words (portText protocol (some r)).toList =
      "range".toList :: (Text.words (Keyword.port protocol r.low).toList ++
        Text.words (Keyword.port protocol r.high).toList) := by
  have htext : (portText protocol (some r)).toList =
      "range".toList ++ ' ' ::
        ((Keyword.port protocol r.low).toList ++ ' ' :: (Keyword.port protocol r.high).toList) := by
    simp [portText, PortRange.isSingle, h]
  rw [htext, Text.words_append_blank _ _ rfl, Text.words_append_blank _ _ rfl]
  rfl

theorem PortRange.read?_portText (protocol : String) (ports : Option PortRange) {ws : List (List Char)}
    (h : ∀ w ∈ ws.head?, ¬StartsPorts w) :
    read? (Text.neat protocol) (Text.words (ExtendedRule.portText protocol ports).toList ++ ws) = some (ports, ws) := by
  cases ports with
  | none => exact read?_of_not_startsPorts _ h
  | some r =>
    obtain ⟨low, high⟩ := r
    -- A range of one port is printed as that port.
    by_cases hsingle : low = high
    · subst hsingle
      have hwords := ExtendedRule.words_single protocol low
      rw [single] at hwords
      rw [hwords, List.cons_append, read?, if_pos rfl, Port.read?_port]
      rfl
    · rw [ExtendedRule.words_range protocol hsingle, List.cons_append, List.append_assoc, read?, if_neg (by decide),
        if_pos rfl, Port.read?_port, Option.bind_some]
      dsimp only
      rw [Port.read?_port]
      rfl

/-! ## ICMP types -/

def Keyword.readIcmpType? (family : Family) : List (List Char) → Option (Option Nat × List (List Char))
  | [] => some (none, [])
  | w :: ws =>
    if (RuleOption.read? w).isSome then some (none, w :: ws)
    else (read? (icmpTable family) w).map fun n => (some n, ws)

def ExtendedRule.icmpText (family : Family) (icmpType : Option Nat) : String :=
  (icmpType.map (Keyword.icmpType family)).getD ""

theorem ExtendedRule.words_icmpText (family : Family) (n : Nat) :
    Text.words (icmpText family (some n)).toList = [(Keyword.ofNumber (Keyword.icmpTable family) n).toList] := by
  have htext : icmpText family (some n) = Keyword.ofNumber (Keyword.icmpTable family) n :=
    Keyword.icmpType_eq_ofNumber family n
  rw [htext, Keyword.words_ofNumber (Keyword.readable_icmpTable family)]

theorem Keyword.read?_reserved (family : Family) :
    ∀ w ∈ ["eq", "range", "established", "log"], read? (icmpTable family) w.toList = none := by
  cases family <;> decide +kernel

/-- A word for an ICMP type starts no other clause. -/
theorem Keyword.ne_reserved (family : Family) (n : Nat) :
    ∀ w ∈ ["eq", "range", "established", "log"], (ofNumber (icmpTable family) n).toList ≠ w.toList := by
  intro w hw heq
  have hnone := read?_reserved family w hw
  rw [← heq, read?_ofNumber (readable_icmpTable family)] at hnone
  cases hnone

theorem Keyword.readIcmpType?_icmpText (family : Family) (icmpType : Option Nat) (os : List RuleOption) :
    readIcmpType? family (Text.words (ExtendedRule.icmpText family icmpType).toList ++ os.map (·.word.toList)) =
      some (icmpType, os.map (·.word.toList)) := by
  cases icmpType with
  | none =>
    change readIcmpType? family (os.map (·.word.toList)) = _
    cases os with
    | nil => rfl
    | cons o os => simp [readIcmpType?, RuleOption.read?_word]
  | some n =>
    have hne := ne_reserved family n
    have hoption : RuleOption.read? (ofNumber (icmpTable family) n).toList = none := by
      simp only [RuleOption.read?, List.find?_eq_none]
      intro o _ heq
      have hword : o.word ∈ ["eq", "range", "established", "log"] := by cases o <;> decide
      exact hne _ hword (eq_of_beq heq).symm
    rw [ExtendedRule.words_icmpText, List.singleton_append, readIcmpType?, hoption,
      read?_ofNumber (readable_icmpTable family)]
    rfl

/-! ## What starts no clause of ports -/

theorem AddressPattern.not_startsPorts {ws : List (List Char)} (h : (readClause? ws).isSome) :
    ∀ w ∈ ws.head?, ¬StartsPorts w := by
  rintro w hw hports
  cases ws with
  | nil => cases hw
  | cons w' ws =>
    cases hw
    have hnone : readClause? (w :: ws) = none := by
      rcases hports with rfl | rfl <;> rfl
    rw [hnone] at h
    cases h

theorem Keyword.not_startsPorts (family : Family) (icmpType : Option Nat) (os : List RuleOption) :
    ∀ w ∈ (Text.words (ExtendedRule.icmpText family icmpType).toList ++ os.map (·.word.toList)).head?,
      ¬StartsPorts w := by
  intro w hw hports
  cases icmpType with
  | none =>
    cases os with
    | nil => cases hw
    | cons o os =>
      cases hw
      rcases hports with heq | heq <;> cases o <;> exact absurd heq (by decide)
  | some n =>
    rw [ExtendedRule.words_icmpText] at hw
    cases hw
    rcases hports with heq | heq
    · exact ne_reserved family n "eq" (by simp) heq
    · exact ne_reserved family n "range" (by simp) heq

/-! ## Lines -/

structure RuleClauses where
  source : AddressPattern
  sourcePorts : Option PortRange
  destination : AddressPattern
  destinationPorts : Option PortRange
  icmpType : Option Nat
  options : List RuleOption

def RuleClauses.read? (family : Family) (protocol : String) (ws : List (List Char)) : Option RuleClauses :=
  (AddressPattern.readClause? ws).bind fun (source, ws) =>
    (PortRange.read? protocol ws).bind fun (sourcePorts, ws) =>
      (AddressPattern.readClause? ws).bind fun (destination, ws) =>
        (PortRange.read? protocol ws).bind fun (destinationPorts, ws) =>
          (Keyword.readIcmpType? family ws).bind fun (icmpType, ws) =>
            (ws.mapM RuleOption.read?).map fun options =>
              { source, sourcePorts, destination, destinationPorts, icmpType, options }

namespace Endpoint

theorem pattern_fits (e : Endpoint) : e.pattern.Fits := by
  cases e with
  | any => trivial
  | block p => exact p.pattern_fits

def normalized : Endpoint → Endpoint
  | any => any
  | block p => block p.normalized

theorem normalized_eq_of_pattern {e e' : Endpoint} (h : e.pattern = e'.pattern) : e.normalized = e'.normalized := by
  cases e with
  | any =>
    cases e' with
    | any => rfl
    | block q => exact absurd h.symm q.pattern_ne_any
  | block p =>
    cases e' with
    | any => exact absurd h p.pattern_ne_any
    | block q =>
      -- A pattern tells the block by the addresses it matches.
      have hpattern : p.pattern = q.pattern := h
      have hsame : ∀ x, x ∈ p ↔ x ∈ q := fun x => by
        rw [← p.pattern_matches_iff, ← q.pattern_matches_iff, hpattern]
      have hpq := (Cidr.contains_iff_subset p q).mpr fun x => (hsame x).mpr
      have hqp := (Cidr.contains_iff_subset q p).mpr fun x => (hsame x).mp
      exact congrArg block (Cidr.normalized_eq_of_contains hpq hqp)

end Endpoint

namespace ExtendedRule

variable (family : Family) (r : ExtendedRule)

def clauses : RuleClauses where
  source := r.source.pattern
  sourcePorts := r.sourcePorts
  destination := r.destination.pattern
  destinationPorts := r.destinationPorts
  icmpType := r.icmpType
  options := r.applied

def clauseWords : List (List Char) :=
  Text.words (r.source.pattern.text false).toList ++
    (Text.words (portText r.protocol r.sourcePorts).toList ++
      (Text.words (r.destination.pattern.text false).toList ++
        (Text.words (portText r.protocol r.destinationPorts).toList ++
          (Text.words (icmpText family r.icmpType).toList ++ r.applied.map (·.word.toList)))))

theorem words_text_eq : Text.words (r.text family).toList =
    Text.words r.action.keyword.toList ++ (Text.words r.protocol.toList ++ r.clauseWords family) := by
  rw [words_text]
  simp only [List.flatMap_cons, List.flatMap_nil, List.append_nil, RuleOption.words_words]
  rfl

theorem read?_clauseWords :
    RuleClauses.read? family (Text.neat r.protocol) (r.clauseWords family) = some r.clauses := by
  have hsource := AddressPattern.readClause?_text r.source.pattern r.source.pattern_fits
  have hdestination := AddressPattern.readClause?_text r.destination.pattern r.destination.pattern_fits
  -- Ports end before a destination, an ICMP type, an option or the end of the line.
  have hafter : ∀ rest, ∀ w ∈ (Text.words (r.destination.pattern.text false).toList ++ rest).head?,
      ¬StartsPorts w :=
    fun rest => AddressPattern.not_startsPorts (by rw [hdestination]; rfl)
  have hend := Keyword.not_startsPorts family r.icmpType r.applied
  simp only [RuleClauses.read?, clauseWords, hsource, hdestination, Option.bind_some,
    PortRange.read?_portText _ _ (hafter _), PortRange.read?_portText _ _ hend, Keyword.readIcmpType?_icmpText,
    RuleOption.mapM_read?, Option.map_some]
  rfl

/-- A rule line tells what it was made from: of two lines with one action and one protocol, the same text has the same
endpoints up to host bits, the same ports and ICMP type, and the same options among those that apply. -/
theorem text_determines_clauses (family : Family) {r r' : ExtendedRule}
    (hkeyword : r.action.keyword = r'.action.keyword) (hprotocol : r.protocol = r'.protocol)
    (htext : r.text family = r'.text family) :
    r.source.normalized = r'.source.normalized ∧ r.sourcePorts = r'.sourcePorts ∧
      r.destination.normalized = r'.destination.normalized ∧ r.destinationPorts = r'.destinationPorts ∧
      r.icmpType = r'.icmpType ∧ r.applied = r'.applied := by
  have hwords : r.clauseWords family = r'.clauseWords family := by
    have h : Text.words (r.text family).toList = Text.words (r'.text family).toList := by rw [htext]
    rw [words_text_eq, words_text_eq, hkeyword, hprotocol] at h
    exact List.append_cancel_left (List.append_cancel_left h)
  have hread := r.read?_clauseWords family
  rw [hwords, hprotocol, r'.read?_clauseWords family] at hread
  have hclauses : r'.clauses = r.clauses := Option.some.inj hread
  simp only [clauses, RuleClauses.mk.injEq] at hclauses
  obtain ⟨hsource, hsourcePorts, hdestination, hdestinationPorts, hicmpType, hoptions⟩ := hclauses
  exact ⟨(Endpoint.normalized_eq_of_pattern hsource).symm, hsourcePorts.symm,
    (Endpoint.normalized_eq_of_pattern hdestination).symm, hdestinationPorts.symm, hicmpType.symm, hoptions.symm⟩

def answerRule (bits : Nat) (h : bits < Family.inet.count) (options : List RuleOption) : ExtendedRule where
  action := .accept
  protocol := "udp"
  source := .block ⟨⟨.inet, bits, h⟩, 8, (by decide : 8 ≤ Family.inet.width)⟩
  sourcePorts := some (.single ⟨123, by decide⟩)
  destination := .any
  destinationPorts := some .ephemeral
  icmpType := none
  options

/-- Host bits, and an option that does not apply to UDP, leave no trace in a line. -/
theorem answerRule_text :
    ∃ r r' : ExtendedRule, r.text .inet = r'.text .inet ∧ r ≠ r' ∧
      r.source.normalized = r'.source.normalized ∧ r.applied = r'.applied := by
  have htext : (answerRule 0x0A010203 (by decide) [.established, .log]).text .inet =
      (answerRule 0x0A000000 (by decide) [.log]).text .inet := by decide +kernel
  obtain ⟨hsource, -, -, -, -, hoptions⟩ := text_determines_clauses .inet rfl rfl htext
  exact ⟨_, _, htext, by decide, hsource, hoptions⟩

end ExtendedRule

end AccessList
