import AccessList.Document.Reading
import AccessList.Proofs.Date

/-!
# Readers on documents of JSON

A reader that needs only so many levels of nesting reads a document wherever there are as many, and follows no
references. What a reader makes of a record or a list comes from what its readers make of the fields and the items.
-/

namespace AccessList

theorem mapM_map_eq_pure {m : Type → Type} [Monad m] [LawfulMonad m] {α β : Type} {f : β → m α} {g : α → β}
    {as : List α} (h : ∀ a ∈ as, f (g a) = pure a) : (as.map g).mapM f = pure as := by
  induction as with
  | nil => rfl
  | cons a as ih =>
    obtain ⟨ha, has⟩ := List.forall_mem_cons.mp h
    rw [List.map_cons, List.mapM_cons, ha, ih has, pure_bind, pure_bind]

namespace Reader

variable {α : Type} {read : Reader α} {n : Nat} {d : Document} {a : α}

/-- What a reader makes of a document of JSON where `n` collections may be entered. -/
def Reads (read : Reader α) (n : Nat) (d : Document) (a : α) : Prop :=
  ∀ c : Reading, c.format = .json → n ≤ c.depth → read c d = pure a

/-- The number of references that may be followed does not matter. -/
theorem Reads.ofJson (h : read.Reads n d a) (hn : n ≤ 127) : read.ofJson d = some a := by
  unfold Reader.ofJson Reader.read
  rw [h _ rfl hn]
  rfl

theorem enter_of_lt {c : Reading} (h : n < c.depth) :
    ∃ inner : Reading, c.enter = pure inner ∧ inner.format = c.format ∧ n ≤ inner.depth := by
  obtain ⟨k, hk⟩ : ∃ k, c.depth = k + 1 := ⟨c.depth - 1, by omega⟩
  refine ⟨{ c with depth := k }, ?_, rfl, by simp only; omega⟩
  unfold Reading.enter
  rw [hk]

/-! ## Leaves -/

theorem reads_text (s : String) : text.Reads 0 (.text s) s := by
  intro c hc _
  unfold text
  rw [hc]
  rfl

theorem reads_bool (b : Bool) : bool.Reads 0 (.bool b) b := by
  intro c hc _
  unfold bool
  rw [hc]
  cases b <;> rfl

theorem reads_date (d : Date) : date.Reads 0 (.text d.text) d := by
  intro c hc hn
  unfold date
  rw [reads_text d.text c hc hn, pure_bind, Date.ofText?_text]
  rfl

theorem reads_named {ofName? : String → Option α} {s : String} (h : ofName? s = some a) :
    (named ofName?).Reads 0 (.text s) a := by
  intro c hc hn
  unfold named
  rw [hc]
  change (text c (.text s) >>= fun s => (ofName? s : Attempt α)) = pure a
  rw [reads_text s c hc hn, pure_bind, h]
  rfl

/-! ## Collections -/

theorem reads_list {as : List α} {write : α → Document} (h : ∀ a ∈ as, read.Reads n (write a) a) :
    (list read).Reads (n + 1) (.list (as.map write)) as := by
  intro c hc hn
  obtain ⟨inner, henter, hformat, hdepth⟩ := enter_of_lt hn
  unfold list
  change (c.enter >>= fun c => (as.map write).mapM (read c)) = pure as
  rw [henter, pure_bind]
  exact mapM_map_eq_pure fun a ha => h a ha inner (hformat.trans hc) hdepth

theorem reads_texts (ss : List String) : (list text).Reads 1 (.texts ss) ss := reads_list fun s _ => reads_text s

theorem reads_optional {o : Option α} {write : α → String} (h : ∀ a, read.Reads n (.text (write a)) a) :
    (optional read).Reads n (.optional (o.map write)) o := by
  intro c hc hn
  unfold optional
  cases o with
  | none =>
    rw [hc]
    rfl
  | some a =>
    change (some <$> read c (.text (write a))) = pure (some a)
    rw [h a c hc hn, map_pure]

theorem reads_optional_text (o : Option String) : (optional text).Reads 0 (.optional o) o := by
  have h : (optional text).Reads 0 (.optional (o.map id)) o := reads_optional reads_text
  rwa [Option.map_id_fun, id] at h

/-- A record whose fields are those that its reader knows, each once. -/
theorem reads_record {names : List String} {fields : Fields} {strict : Bool} {build : Reading × Fields → Attempt α}
    (hread : ∀ c d, read c d = record names strict c d >>= build) (hnames : fields.map (·.1) = names)
    (hnodup : names.Nodup) (h : ∀ c : Reading, c.format = .json → n ≤ c.depth → build (c, fields) = pure a) :
    read.Reads (n + 1) (.record fields) a := by
  intro c hc hn
  obtain ⟨inner, henter, hformat, hdepth⟩ := enter_of_lt hn
  have hall : ∀ field ∈ fields, names.contains field.1 = true := by
    intro field hfield
    rw [List.contains_iff_mem, ← hnames]
    exact List.mem_map_of_mem hfield
  have hknown : known? names strict fields = some fields := by
    have hany : (fields.any fun field => !names.contains field.1) = false := by simpa using hall
    have hfilter : (fields.filter fun field => names.contains field.1) = fields := List.filter_eq_self.mpr hall
    change (if strict && fields.any (fun field => !names.contains field.1) then none
      else if ((fields.filter fun field => names.contains field.1).map (·.1)).Nodup then
        some (fields.filter fun field => names.contains field.1)
      else none) = some fields
    simp only [hany, Bool.and_false, Bool.false_eq_true, if_false, hfilter, hnames, if_pos hnodup]
  have hrecord : record names strict c (.record fields) = pure (inner, fields) := by
    have hresolve : c.resolve (.record fields) = pure (.record fields) := rfl
    unfold record
    rw [hresolve, pure_bind, Document.record]
    dsimp only [Document.untyped]
    rw [henter, pure_bind, mapM_map_eq_pure, pure_bind, hknown]
    · rfl
    · intro field _
      change (text c (.text field.1) >>= fun s => pure (s, field.2)) = pure field
      rw [reads_text field.1 c hc (Nat.zero_le _), pure_bind]
  rw [hread, hrecord, pure_bind]
  exact h inner (hformat.trans hc) hdepth

/-! ## Content -/

variable {c : Reading}

theorem content_eq_scalar (n : Nat) (style : Style) (s : String) :
    content n c (.scalar style s) = (do pure (Content.scalar (← Scalar.of? c.format style s))) := by
  delta content
  cases n <;> rfl

theorem content_eq_list (n : Nat) (items : List Document) :
    content (n + 1) c (.list items) = (do pure (Content.list (← items.mapM (content n c)))) := by
  delta content
  rfl

theorem content_eq_map (n : Nat) (entries : List (Document × Document)) :
    content (n + 1) c (.map entries) =
      (do pure (Content.map (← entries.mapM fun (k, d) => do pure (← content n c k, ← content n c d)))) := by
  delta content
  rfl

theorem content_scalar (hc : c.format = .json) {style : Style} {s : String} {v : Scalar}
    (h : Scalar.of? .json style s = some v) (n : Nat) : content n c (.scalar style s) = pure (Content.scalar v) := by
  rw [content_eq_scalar, hc, h]
  rfl

theorem content_text (hc : c.format = .json) (s : String) (n : Nat) :
    content n c (.text s) = pure (Content.scalar (.text s)) := content_scalar hc rfl n

end Reader

theorem Scalar.ofJson_toString {n : Nat} (h : n < 0x10000000000000000) : ofJson (toString n) = some (.unsigned n) := by
  have hdigits : (toString n).toList = Nat.toDigits 10 n := Nat.toList_repr
  have hdigit : ∀ c ∈ Nat.toDigits 10 n, c.isDigit = true := fun c =>
    Nat.isDigit_of_mem_toDigits (by decide) (by decide)
  have hword : ∀ w : String, w.toList.any (!·.isDigit) = true → toString n ≠ w := by
    rintro w hw rfl
    obtain ⟨c, hc, hnot⟩ := List.any_eq_true.mp hw
    rw [hdigits] at hc
    simp [hdigit c hc] at hnot
  unfold ofJson
  split
  next heq => exact absurd heq (hword _ (by decide))
  next heq => exact absurd heq (hword _ (by decide))
  next heq => exact absurd heq (hword _ (by decide))
  next =>
    have hread : Text.digits? 10 (Nat.toDigits 10 n) = some n := Text.digits?_toDigits (by decide) (by decide) n
    have hne : Nat.toDigits 10 n ≠ [] := Nat.toDigits_ne_nil
    obtain ⟨d, ds, hds⟩ := List.exists_cons_of_ne_nil hne
    have hminus : d ≠ '-' := by
      rintro rfl
      exact absurd (hdigit '-' (hds ▸ List.mem_cons_self ..)) (by decide)
    rw [hdigits, hds]
    rw [hds] at hread
    simp [hminus, hread, h]

end AccessList
