import AccessList.Policy.Load
import AccessList.Proofs.Document.Json
import AccessList.Proofs.Document.Reading
import AccessList.Proofs.Net.BlockText

/-!
# Policies that are written and loaded again

Every part of a policy reads as itself from the document that it is written as, and a policy that passes its check is
loaded as it was.
-/

namespace AccessList

namespace Reader

/-! ## Blocks and ports

Their readers take several shapes, so everything in the node is understood before the shape is looked at. -/

theorem block?_text (p : Cidr) : block? (.scalar (.text p.text)) = some p := by
  rw [block?, Cidr.parse_text]
  rfl

theorem tagged?_eq_some {a : Tagged} {token : Content} (h : token? token = some a.token) :
    tagged? (.map [(.scalar (.text "address"), .scalar (.text a.block.text)), (.scalar (.text "token"), token)]) =
      some a := by
  change ((block? (.scalar (.text a.block.text))).bind fun block => (token? token).bind fun t =>
    some ({ block := block, token := t } : Tagged)) = some a
  rw [block?_text, h]
  rfl

theorem reads_tagged (a : Tagged) : tagged.Reads 1 (.tagged a) a := by
  intro c hc hn
  obtain ⟨k, hk⟩ : ∃ k, c.depth = k + 1 := ⟨c.depth - 1, by omega⟩
  obtain ⟨token, htoken, hread⟩ : ∃ token, content k c (.optional a.token) = pure token ∧
      token? token = some a.token := by
    cases a.token with
    | none => exact ⟨_, content_scalar hc rfl k, rfl⟩
    | some s => exact ⟨_, content_text hc s k, rfl⟩
  unfold tagged
  rw [hk, Document.tagged, Document.record, content_eq_map]
  simp only [List.map_cons, List.map_nil, List.mapM_cons, List.mapM_nil, content_text hc, htoken, pure_bind]
  rw [tagged?_eq_some hread]
  rfl

example : String.ofList (Json.write (.tagged ⟨⟨⟨.inet, 0x0a010203, by decide⟩, 8, by decide⟩, some "NET"⟩)) =
    "\x7b\"address\":\"10.1.2.3/8\",\"token\":\"NET\"\x7d" := by decide +kernel

theorem port?_val (p : Port) : port? (.scalar (.unsigned p.val)) = some p := by
  have hp : 0 ≤ (p.val : Int) ∧ (p.val : Int).toNat < 65536 := by omega
  simp only [port?, Scalar.int?, Option.bind_some, dif_pos hp]
  rfl

theorem reads_portRange (r : PortRange) : portRange.Reads 1 (.portRange r) r := by
  intro c hc hn
  obtain ⟨k, hk⟩ : ∃ k, c.depth = k + 1 := ⟨c.depth - 1, by omega⟩
  have hport : ∀ p : Port, content k c (.number p.val) = pure (Content.scalar (.unsigned p.val)) := fun p =>
    content_scalar hc (show Scalar.of? .json .plain _ = _ from Scalar.ofJson_toString (by omega)) k
  have hrange : portRange? (.list [.scalar (.unsigned r.low.val), .scalar (.unsigned r.high.val)]) = some r := by
    rw [portRange?, port?_val, port?_val]
    rfl
  unfold portRange
  rw [hk, Document.portRange, content_eq_list]
  simp only [List.mapM_cons, List.mapM_nil, hport, pure_bind]
  rw [hrange]
  rfl

/-! ## Records -/

theorem reads_action (a : Action) : action.Reads 0 (.text a.name) a := reads_named (by cases a <;> decide)

theorem reads_verbatim (v : Verbatim) : verbatim.Reads 1 (.verbatim v) v := by
  refine reads_record (fun _ _ => rfl) rfl (by decide) fun c hc hn => ?_
  have htext : ∀ s, text c (.text s) = pure s := fun s => reads_text s c hc hn
  have hfound : ∀ d : Document, (liftM (some d) : Attempt Document) = pure d := fun _ => rfl
  simp only [Fields.require, List.lookup_cons, String.reduceBEq, hfound, htext, pure_bind]

theorem reads_target (t : Target) : target.Reads 2 (.target t) t := by
  refine reads_record (fun _ _ => rfl) rfl (by decide) fun c hc hn => ?_
  have hname : text c (.text t.platform) = pure t.platform := reads_text _ c hc (by omega)
  have hoptions : list text c (.texts t.options) = pure t.options := reads_texts _ c hc hn
  simp only [Fields.read, List.lookup_cons, String.reduceBEq, hname, hoptions, pure_bind]

theorem reads_header (h : Header) : header.Reads 4 (.header h) h := by
  refine reads_record (fun _ _ => rfl) rfl (by decide) fun c hc hn => ?_
  have htargets : list target c (.list (h.targets.map Document.target)) = pure h.targets :=
    reads_list (fun t _ => reads_target t) c hc hn
  have hcomments : list text c (.texts h.comments) = pure h.comments := reads_texts _ c hc (by omega)
  simp only [Fields.read, List.lookup_cons, String.reduceBEq, htargets, hcomments, pure_bind]

theorem reads_term (t : Term) : term.Reads 3 (.term t) t := by
  refine reads_record (fun _ _ => rfl) rfl (by decide) fun c hc hn => ?_
  have htext : ∀ s, text c (.text s) = pure s := fun s => reads_text s c hc (by omega)
  have htexts : ∀ ss, list text c (.texts ss) = pure ss := fun ss => reads_texts ss c hc (by omega)
  have hword : ∀ o, optional text c (.optional o) = pure o := fun o => reads_optional_text o c hc (by omega)
  have hactions : list action c (.texts (t.actions.map (·.name))) = pure t.actions := by
    rw [Document.texts, List.map_map]
    exact reads_list (fun a _ => reads_action a) c hc (by omega)
  have hblocks : ∀ as, list tagged c (.list (as.map Document.tagged)) = pure as := fun as =>
    reads_list (fun a _ => reads_tagged a) c hc hn
  have hports : ∀ rs, list portRange c (.list (rs.map Document.portRange)) = pure rs := fun rs =>
    reads_list (fun r _ => reads_portRange r) c hc hn
  have hverbatims : list verbatim c (.list (t.verbatims.map Document.verbatim)) = pure t.verbatims :=
    reads_list (fun v _ => reads_verbatim v) c hc hn
  have hexpiration : optional date c (.optional (t.expiration.map (·.text))) = pure t.expiration :=
    reads_optional reads_date c hc (by omega)
  have hlogging : bool c (.bool t.logging) = pure t.logging := reads_bool _ c hc (by omega)
  simp only [Fields.read, List.lookup_cons, String.reduceBEq, htext, htexts, hword, hactions, hblocks, hports,
    hverbatims, hexpiration, hlogging, pure_bind]

theorem reads_filter (f : Filter) : filter.Reads 5 (.filter f) f := by
  refine reads_record (fun _ _ => rfl) rfl (by decide) fun c hc hn => ?_
  have hheader : header c (.header f.header) = pure f.header := reads_header _ c hc hn
  have hterms : list term c (.list (f.terms.map Document.term)) = pure f.terms :=
    reads_list (fun t _ => reads_term t) c hc (by omega)
  simp only [Fields.read, List.lookup_cons, String.reduceBEq, hheader, hterms, pure_bind]

theorem reads_policy (p : Policy) : policy.Reads 7 (.policy p) p := by
  refine reads_record (fun _ _ => rfl) rfl (by decide) fun c hc hn => ?_
  have hfilters : list filter c (.list (p.filters.map Document.filter)) = pure p.filters :=
    reads_list (fun f _ => reads_filter f) c hc hn
  simp only [Fields.read, List.lookup_cons, String.reduceBEq, hfilters, pure_bind]

end Reader

/-! ## Policies have text -/

namespace Json

theorem writable_map {α : Type} {write : α → Document} (h : ∀ a, Writable (write a)) (as : List α) :
    Writable (.list (as.map write)) := by
  refine .list fun d hd => ?_
  obtain ⟨a, -, rfl⟩ := List.mem_map.mp hd
  exact h a

theorem writable_texts (ss : List String) : Writable (.texts ss) := writable_map .text ss

theorem writable_optional (o : Option String) : Writable (.optional o) := by
  cases o with
  | none => exact .null
  | some s => exact .text s

theorem writable_tagged (a : Tagged) : Writable (.tagged a) := by
  refine .record ?_
  simpa using ⟨.text _, writable_optional _⟩

theorem writable_portRange (r : PortRange) : Writable (.portRange r) := by
  refine .list ?_
  simpa using ⟨.number _, .number _⟩

theorem writable_verbatim (v : Verbatim) : Writable (.verbatim v) := by
  refine .record ?_
  simpa using ⟨.text _, .text _⟩

theorem writable_term (t : Term) : Writable (.term t) := by
  refine .record ?_
  simp [Writable.text, Writable.bool, writable_texts, writable_optional, writable_map writable_tagged,
    writable_map writable_portRange, writable_map writable_verbatim]

theorem writable_target (t : Target) : Writable (.target t) := by
  refine .record ?_
  simpa using ⟨.text _, writable_texts _⟩

theorem writable_header (h : Header) : Writable (.header h) := by
  refine .record ?_
  simpa using ⟨writable_map writable_target _, writable_texts _⟩

theorem writable_filter (f : Filter) : Writable (.filter f) := by
  refine .record ?_
  simpa using ⟨writable_header _, writable_map writable_term _⟩

theorem writable_policy (p : Policy) : Writable (.policy p) := by
  refine .record ?_
  simpa using writable_map writable_filter _

end Json

/-! ## Policies -/

namespace Policy

/-- Writing a policy loses nothing; only its check may refuse it when it is read. -/
theorem ofDocument_policy (p : Policy) (origin : String) :
    ofDocument origin (.policy p) = p.check.map fun _ => p := by
  have hread : Reader.policy.ofJson (.policy p) = some p := (Reader.reads_policy p).ofJson (by decide)
  rw [Reader.ofJson] at hread
  rw [ofDocument, ofSource, Option.bind_some, hread]

theorem ofText_policy (p : Policy) (origin : String) :
    ofText .json origin (String.ofList (Json.write (.policy p))) = p.check.map fun _ => p := by
  have hparsed := Json.read?_write (Json.writable_policy p)
  rw [← ofDocument_policy p origin, ofText, hparsed]
  rfl

/-- A policy that passes its check is loaded as it was, from its document and from the text of the document. -/
theorem reload_of_check {p : Policy} (h : p.check = .ok ()) (origin : String) :
    ofDocument origin (.policy p) = .ok p ∧ ofText .json origin (String.ofList (Json.write (.policy p))) = .ok p := by
  rw [ofDocument_policy, ofText_policy, h]
  exact ⟨rfl, rfl⟩

/-- Blocks of both families with host bits and tokens, years that need a sign, text that needs escapes. -/
def probe : Policy where
  filters := [{
    header := {
      targets := [{ platform := "cisco", options := ["edge", "mixed"] }]
      comments := ["first\nsecond \"line\""] }
    terms := [
      { name := "both"
        actions := [.accept, .rejectWithTcpRst]
        protocols := ["tcp"]
        addresses := [{ block := ⟨⟨.inet, 0x0a010203, by decide⟩, 8, by decide⟩, token := some "NET" }]
        destinationExcludes := [
          { block := ⟨⟨.inet6, 0x20010db8000000000000000000000001, by decide⟩, 64, by decide⟩ }]
        sourcePorts := [⟨⟨1024, by decide⟩, ⟨65535, by decide⟩⟩, .single ⟨0, by decide⟩]
        expiration := some ⟨Date.dayNumber 12345 1 2, by decide, by decide⟩
        logging := true },
      { name := "raw"
        verbatims := [{ platform := "cisco", text := "a\tb\\" }]
        owner := some "null"
        expiration := some ⟨Date.dayNumber (-44) 3 15, by decide, by decide⟩ }] }]

theorem probe_reloaded : probe.check = .ok () ∧ ofDocument "p" (.policy probe) = .ok probe ∧
    ofText .json "p" (String.ofList (Json.write (.policy probe))) = .ok probe := by
  have hcheck : probe.check = .ok () := by decide +kernel
  exact ⟨hcheck, reload_of_check hcheck "p"⟩

end Policy

end AccessList
