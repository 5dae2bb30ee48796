import AccessList.Document.Json
import AccessList.Proofs.Text.Numerals

/-!
# JSON text that is read again

A document of texts, literals and natural numbers, in lists and records, is what is read from the text that it is
written as.
-/

namespace AccessList.Json

open Document

/-! ## Strings -/

theorem points?_cons {c : Char} (hquote : c ≠ '"') (hslash : c ≠ '\\') (hcontrol : ¬c.toNat < 0x20) (rest : List Char) :
    points? (c :: rest) = (points? rest).map fun p => (c.toNat :: p.1, p.2) := by
  rw [points?, if_neg hcontrol]
  · cases points? rest <;> rfl
  all_goals simp_all

theorem hexDigits_of_lt {n : Nat} (hn : n < 0x20) :
    ∃ a b c d, hexDigits n = [a, b, c, d] ∧ Text.digits? 16 [a, b, c, d] = some n := by
  have hlength : ∀ n < 0x20, (hexDigits n).length = 4 := by decide
  obtain ⟨a, b, c, d, h⟩ : ∃ a b c d, hexDigits n = [a, b, c, d] := by
    match hexDigits n, hlength n hn with
    | [a, b, c, d], _ => exact ⟨a, b, c, d, rfl⟩
  refine ⟨a, b, c, d, h, ?_⟩
  rw [← h]
  exact Text.digits?_zeros_toDigits (by decide) (by decide) _ n

theorem points?_writeChar (c : Char) (rest : List Char) :
    points? (writeChar c ++ rest) = (points? rest).map fun p => (c.toNat :: p.1, p.2) := by
  have hescape : ∀ e, (points? rest >>= fun p => pure (e :: p.1, p.2)) =
      (points? rest).map fun p => (e :: p.1, p.2) := by
    intro e
    cases points? rest <;> rfl
  unfold writeChar
  split
  case h_6 c hquote hslash _ _ _ =>
    split
    next hcontrol =>
      obtain ⟨a, b, c', d, hhex, hvalue⟩ := hexDigits_of_lt hcontrol
      rw [hhex]
      change (Text.digits? 16 [a, b, c', d] >>= fun u => points? rest >>= fun p => pure (u :: p.1, p.2)) = _
      rw [hvalue]
      exact hescape _
    next hcontrol => exact points?_cons hquote hslash hcontrol rest
  all_goals exact hescape _

theorem points?_flatMap (cs rest : List Char) :
    points? (cs.flatMap writeChar ++ '"' :: rest) = some (cs.map Char.toNat, rest) := by
  induction cs with
  | nil => rfl
  | cons c cs ih => rw [List.flatMap_cons, List.append_assoc, points?_writeChar, ih, Option.map_some, List.map_cons]

theorem not_surrogate (c : Char) : ¬(0xD800 ≤ c.toNat ∧ c.toNat < 0xE000) := by
  have hvalid : c.toNat < 0xD800 ∨ 0xDFFF < c.toNat ∧ c.toNat < 0x110000 := c.valid
  omega

theorem joinPairs_toNat (cs : List Char) : joinPairs (cs.map Char.toNat) = some cs := by
  induction cs with
  | nil => rfl
  | cons c cs ih =>
    have hc := not_surrogate c
    cases cs with
    | nil => simp only [List.map_cons, List.map_nil, joinPairs, if_neg hc, Char.ofNat_toNat]
    | cons d cs =>
      rw [List.map_cons] at ih ⊢
      rw [List.map_cons, joinPairs, if_neg (by omega), if_neg hc, ih, Option.map_some, Char.ofNat_toNat]

theorem ofPoints_toNat (s : String) : ofPoints (s.toList.map Char.toNat) = text s := by
  rw [ofPoints, joinPairs_toNat, Option.elim_some, String.ofList_toList]

/-! ## Written values -/

theorem write_text (s : String) : write (text s) = writeString s := rfl

theorem write_number (n : Nat) : write (number n) = Nat.toDigits 10 n := by
  change (toString n).toList = _
  exact Nat.toList_repr

theorem write_list (items : List Document) : write (list items) = '[' :: writeItems items ++ [']'] := rfl

theorem write_map (entries : List (Document × Document)) :
    write (map entries) = '\x7b' :: writeEntries entries ++ ['\x7d'] := rfl

/-! ## Literals and numbers -/

def Ends (rest : List Char) : Prop := ∀ c ∈ rest.head?, c = ',' ∨ c = ']' ∨ c = '\x7d'

theorem ends_nil : Ends [] := nofun

theorem ends_cons {c : Char} {rest : List Char} (hc : c = ',' ∨ c = ']' ∨ c = '\x7d') : Ends (c :: rest) := by
  intro c' hc'
  cases hc'
  exact hc

variable {rest : List Char} {d : Document} {n : Nat}

theorem Ends.fraction? (h : Ends rest) : fraction? rest = some ([], rest) := by
  cases rest with
  | nil => rfl
  | cons c rest => obtain rfl | rfl | rfl := h c rfl <;> rfl

theorem Ends.exponent? (h : Ends rest) : exponent? rest = some ([], rest) := by
  cases rest with
  | nil => rfl
  | cons c rest => obtain rfl | rfl | rfl := h c rfl <;> rfl

theorem Ends.takeDigits (h : Ends rest) {ds : List Char} (hds : ∀ c ∈ ds, c.isDigit = true) :
    takeDigits (ds ++ rest) = (ds, rest) := by
  have hstop : rest.head?.all fun c => !c.isDigit := by
    cases rest with
    | nil => rfl
    | cons c rest => obtain rfl | rfl | rfl := h c rfl <;> rfl
  rw [Json.takeDigits, Text.takeWhile_run hds hstop, Text.dropWhile_run hds hstop]

theorem toDigits_eq_cons (n : Nat) : ∃ d ds, Nat.toDigits 10 n = d :: ds ∧ d.isDigit = true := by
  have hne : Nat.toDigits 10 n ≠ [] := Nat.toDigits_ne_nil
  obtain ⟨d, ds, hds⟩ := List.exists_cons_of_ne_nil hne
  exact ⟨d, ds, hds, Nat.isDigit_of_mem_toDigits (by decide) (by decide) (hds ▸ List.mem_cons_self ..)⟩

theorem number?_toDigits (n : Nat) (h : Ends rest) :
    number? (Nat.toDigits 10 n ++ rest) = some (Nat.toDigits 10 n, rest) := by
  obtain rfl | hn := Nat.eq_zero_or_pos n
  · simp [number?, h.fraction?, h.exponent?]
  · have htake := h.takeDigits fun c => Nat.isDigit_of_mem_toDigits (n := n) (b := 10) (by decide) (by decide)
    have hhead := Text.head?_toDigits (b := 10) (by decide) (by decide) hn
    obtain ⟨d, ds, hds, hd⟩ := toDigits_eq_cons n
    rw [hds] at htake hhead ⊢
    have hminus : d ≠ '-' := by
      rintro rfl
      exact absurd hd (by decide)
    have hzero : d ≠ '0' := by simpa using hhead
    rw [List.cons_append] at htake ⊢
    simp [number?, hminus, hzero, htake, h.fraction?, h.exponent?]

theorem scalar?_null (rest : List Char) : scalar? ("null".toList ++ rest) = some (null, rest) := rfl

theorem scalar?_bool (b : Bool) (rest : List Char) :
    scalar? ((if b then "true" else "false").toList ++ rest) = some (bool b, rest) := by
  cases b <;> rfl

theorem scalar?_number (n : Nat) (h : Ends rest) : scalar? (write (number n) ++ rest) = some (number n, rest) := by
  have hnumber := number?_toDigits n h
  have hnone : literals.findSome? (fun w => (after? w.toList (Nat.toDigits 10 n ++ rest)).map (w, ·)) = none := by
    obtain ⟨d, ds, hds, hd⟩ := toDigits_eq_cons n
    have hword : d ≠ 'n' ∧ d ≠ 't' ∧ d ≠ 'f' := by
      refine ⟨?_, ?_, ?_⟩ <;> (rintro rfl; exact absurd hd (by decide))
    obtain ⟨hn, ht, hf⟩ := hword
    simp [hds, literals, after?, hn.symm, ht.symm, hf.symm]
  rw [scalar?, write_number, hnone]
  change (number? (Nat.toDigits 10 n ++ rest)).map (fun p => (plain (String.ofList p.1), p.2)) = _
  rw [hnumber]
  rfl

/-! ## Values -/

/-- Documents that have JSON text of their own. -/
inductive Writable : Document → Prop
  | text (s : String) : Writable (text s)
  | null : Writable null
  | bool (b : Bool) : Writable (bool b)
  | number (n : Nat) : Writable (number n)
  | list {items : List Document} (h : ∀ d ∈ items, Writable d) : Writable (list items)
  | record {fields : List (String × Document)} (h : ∀ f ∈ fields, Writable f.2) : Writable (record fields)

abbrev Leads (c : Char) : Prop := c ∉ [' ', '\n', '\r', '\t', ']']

theorem leads_of_isDigit {c : Char} (h : c.isDigit = true) : Leads c := by
  intro hc
  simp only [List.mem_cons, List.not_mem_nil, or_false] at hc
  obtain rfl | rfl | rfl | rfl | rfl := hc <;> exact absurd h (by decide)

theorem Writable.lead (h : Writable d) : ∃ c cs, write d = c :: cs ∧ Leads c := by
  cases h with
  | text s => exact ⟨'"', _, rfl, by decide⟩
  | null => exact ⟨'n', _, rfl, by decide⟩
  | bool b => cases b with
    | true => exact ⟨'t', _, rfl, by decide⟩
    | false => exact ⟨'f', _, rfl, by decide⟩
  | number n =>
    obtain ⟨c, cs, hcs, hc⟩ := toDigits_eq_cons n
    exact ⟨c, cs, (write_number n).trans hcs, leads_of_isDigit hc⟩
  | list h => exact ⟨'[', _, rfl, by decide⟩
  | record h => exact ⟨'\x7b', _, rfl, by decide⟩

theorem skipBlanks_cons {c : Char} (hc : Leads c) (rest : List Char) : skipBlanks (c :: rest) = c :: rest := by
  simp only [Leads, List.mem_cons, List.not_mem_nil, or_false, not_or] at hc
  rw [skipBlanks, List.dropWhile_cons_of_neg]
  simp [hc]

/-- With as many steps as it has nodes, a document is read up to what comes after it. -/
def Recovered (d : Document) : Prop :=
  ∀ n rest, d.size ≤ n → Ends rest → value? n (write d ++ rest) = some (d, rest)

theorem size_pos : ∀ d : Document, 0 < d.size
  | .scalar .. | .list _ | .map _ | .reference _ | .unreadable => by simp [size]
  | .typed _ d => size_pos d

theorem items?_writeItems {items : List Document} (h : ∀ d ∈ items, Recovered d) (hne : items ≠ [])
    (hn : sizeItems items < n) (rest : List Char) :
    items? n (writeItems items ++ ']' :: rest) = some (items, rest) := by
  induction items generalizing n with
  | nil => exact absurd rfl hne
  | cons d ds ih =>
    obtain ⟨hd, hds⟩ := List.forall_mem_cons.mp h
    obtain ⟨m, rfl⟩ : ∃ m, n = m + 1 := ⟨n - 1, by omega⟩
    rw [sizeItems] at hn
    cases ds with
    | nil =>
      rw [writeItems, items?, hd m _ (by omega) (ends_cons (by simp))]
      rfl
    | cons e ds =>
      have hpos := size_pos d
      have htail := ih hds (by simp) (n := m) (by omega)
      rw [writeItems, List.append_assoc, List.cons_append, items?, hd m _ (by omega) (ends_cons (by simp))]
      change ((items? m (writeItems (e :: ds) ++ ']' :: rest)).bind fun p => some (d :: p.1, p.2)) = _
      rw [htail]
      rfl

theorem entries?_writeEntry (name : String) (hd : Recovered d) (hn : d.size ≤ n) (hrest : Ends rest) :
    entries? (n + 1) (write (text name) ++ ':' :: write d ++ rest) =
      match skipBlanks rest with
      | '\x7d' :: r => some ([(text name, d)], r)
      | ',' :: r => (entries? n r).bind fun p => some ((text name, d) :: p.1, p.2)
      | _ => none := by
  have hwritten : write (text name) ++ ':' :: write d ++ rest =
      '"' :: (name.toList.flatMap writeChar ++ '"' :: ':' :: (write d ++ rest)) := by
    simp [write_text, writeString]
  have hcolon : skipBlanks (':' :: (write d ++ rest)) = ':' :: (write d ++ rest) := rfl
  rw [hwritten, entries?, skipBlanks_cons (by decide)]
  simp only [points?_flatMap, Option.bind_eq_bind, Option.bind_some, hcolon, hd n rest hn hrest, ofPoints_toNat]
  rfl

abbrev entry (f : String × Document) : Document × Document := (text f.1, f.2)

theorem entries?_writeEntries {fields : List (String × Document)} (h : ∀ f ∈ fields, Recovered f.2) (hne : fields ≠ [])
    (hn : sizeEntries (fields.map entry) < n) (rest : List Char) :
    entries? n (writeEntries (fields.map entry) ++ '\x7d' :: rest) = some (fields.map entry, rest) := by
  induction fields generalizing n with
  | nil => exact absurd rfl hne
  | cons f fs ih =>
    obtain ⟨hf, hfs⟩ := List.forall_mem_cons.mp h
    obtain ⟨m, rfl⟩ : ∃ m, n = m + 1 := ⟨n - 1, by omega⟩
    have hname : (text f.1).size = 1 := rfl
    rw [List.map_cons, sizeEntries, hname] at hn
    cases fs with
    | nil =>
      rw [List.map_cons, List.map_nil, writeEntries, entries?_writeEntry f.1 hf (by omega) (ends_cons (by simp))]
      rfl
    | cons g fs =>
      have htail := ih hfs (by simp) (n := m) (by omega)
      have hwritten : writeEntries ((f :: g :: fs).map entry) ++ '\x7d' :: rest =
          write (text f.1) ++ ':' :: write f.2 ++ (',' :: (writeEntries ((g :: fs).map entry) ++ '\x7d' :: rest)) := by
        simp [writeEntries]
      rw [hwritten, entries?_writeEntry f.1 hf (by omega) (ends_cons (by simp))]
      change ((entries? m (writeEntries ((g :: fs).map entry) ++ '\x7d' :: rest)).bind fun p =>
        some (entry f :: p.1, p.2)) = _
      rw [htail]
      rfl

theorem recovered_of_succ
    (h : ∀ n rest, d.size ≤ n + 1 → Ends rest → value? (n + 1) (write d ++ rest) = some (d, rest)) : Recovered d := by
  intro n rest hn hrest
  cases n with
  | zero =>
    have hpos := size_pos d
    omega
  | succ n => exact h n rest hn hrest

theorem recovered_text (s : String) : Recovered (text s) := by
  refine recovered_of_succ fun n rest hn hrest => ?_
  have hwritten : write (text s) ++ rest = '"' :: (s.toList.flatMap writeChar ++ '"' :: rest) := by
    simp [write_text, writeString]
  rw [hwritten]
  change (points? (s.toList.flatMap writeChar ++ '"' :: rest)).map (fun p => (ofPoints p.1, p.2)) = _
  rw [points?_flatMap, Option.map_some, ofPoints_toNat]

theorem recovered_null : Recovered null := recovered_of_succ fun _ rest _ _ => scalar?_null rest

theorem recovered_bool (b : Bool) : Recovered (bool b) := by
  refine recovered_of_succ fun n rest _ _ => ?_
  cases b with
  | true => exact scalar?_bool true rest
  | false => exact scalar?_bool false rest

theorem value?_digit {c : Char} (hc : c.isDigit = true) (n : Nat) (cs : List Char) :
    value? (n + 1) (c :: cs) = scalar? (c :: cs) := by
  rw [value?, skipBlanks_cons (leads_of_isDigit hc)]
  split
  next heq => cases heq; exact absurd hc (by decide)
  next heq => cases heq; exact absurd hc (by decide)
  next heq => cases heq; exact absurd hc (by decide)
  next => rfl

theorem recovered_number (n : Nat) : Recovered (number n) := by
  refine recovered_of_succ fun m rest _ hrest => ?_
  have hscalar := scalar?_number n hrest
  obtain ⟨c, cs, hcs, hc⟩ := toDigits_eq_cons n
  rw [write_number, hcs, List.cons_append] at hscalar ⊢
  rw [value?_digit hc, hscalar]

theorem value?_bracket {c : Char} (hc : Leads c) (n : Nat) (cs : List Char) :
    value? (n + 1) ('[' :: c :: cs) = (items? n (c :: cs)).map fun p => (list p.1, p.2) := by
  rw [value?, skipBlanks_cons (by decide)]
  simp only [skipBlanks_cons hc]
  split
  next heq =>
    cases heq
    exact absurd hc (by decide)
  next => rfl

theorem value?_brace (n : Nat) (cs : List Char) :
    value? (n + 1) ('\x7b' :: '"' :: cs) = (entries? n ('"' :: cs)).map fun p => (map p.1, p.2) := rfl

theorem recovered_list {items : List Document} (h : ∀ d ∈ items, Writable d) (ih : ∀ d ∈ items, Recovered d) :
    Recovered (list items) := by
  refine recovered_of_succ fun n rest hn _ => ?_
  rw [size] at hn
  cases items with
  | nil => rfl
  | cons d ds =>
    have hread := items?_writeItems ih (by simp) (n := n) (by omega) rest
    -- The first item does not start with a bracket that would end the list.
    obtain ⟨c, cs, hcs, hc⟩ : ∃ c cs, writeItems (d :: ds) ++ ']' :: rest = c :: cs ∧ Leads c := by
      obtain ⟨c, cs, hcs, hc⟩ := (h d (List.mem_cons_self ..)).lead
      cases ds <;> exact ⟨c, _, by rw [writeItems, hcs]; rfl, hc⟩
    have hwritten : write (list (d :: ds)) ++ rest = '[' :: (writeItems (d :: ds) ++ ']' :: rest) := by
      simp [write_list]
    rw [hcs] at hread hwritten
    rw [hwritten, value?_bracket hc, hread]
    rfl

theorem recovered_record {fields : List (String × Document)} (ih : ∀ f ∈ fields, Recovered f.2) :
    Recovered (record fields) := by
  refine recovered_of_succ fun n rest hn _ => ?_
  have hrecord : record fields = .map (fields.map entry) := rfl
  rw [hrecord] at hn ⊢
  rw [size] at hn
  cases fields with
  | nil => rfl
  | cons f fs =>
    have hread := entries?_writeEntries ih (by simp) (n := n) (by omega) rest
    obtain ⟨cs, hcs⟩ : ∃ cs, writeEntries ((f :: fs).map entry) ++ '\x7d' :: rest = '"' :: cs := by
      cases fs <;> exact ⟨_, rfl⟩
    have hwritten : write (.map ((f :: fs).map entry)) ++ rest =
        '\x7b' :: (writeEntries ((f :: fs).map entry) ++ '\x7d' :: rest) := by simp [write_map]
    rw [hcs] at hread hwritten
    rw [hwritten, value?_brace, hread]
    rfl

theorem Writable.recovered (h : Writable d) : Recovered d := by
  induction h with
  | text s => exact recovered_text s
  | null => exact recovered_null
  | bool b => exact recovered_bool b
  | number n => exact recovered_number n
  | list h ih => exact recovered_list h ih
  | record _ ih => exact recovered_record ih

/-! ## Whole texts -/

theorem sizeItems_le {items : List Document} (h : ∀ d ∈ items, d.size ≤ 2 * (write d).length) :
    sizeItems items ≤ 2 * (writeItems items).length := by
  induction items with
  | nil => simp [sizeItems]
  | cons d ds ih =>
    obtain ⟨hd, hds⟩ := List.forall_mem_cons.mp h
    have hrest := ih hds
    cases ds with
    | nil => simpa [sizeItems, writeItems] using hd
    | cons e ds =>
      rw [sizeItems, writeItems, List.length_append, List.length_cons]
      omega

theorem sizeEntries_le {fields : List (String × Document)} (h : ∀ f ∈ fields, f.2.size ≤ 2 * (write f.2).length) :
    sizeEntries (fields.map entry) ≤ 2 * (writeEntries (fields.map entry)).length := by
  induction fields with
  | nil => simp [sizeEntries]
  | cons f fs ih =>
    obtain ⟨hf, hfs⟩ := List.forall_mem_cons.mp h
    have hrest := ih hfs
    have hname : (text f.1).size = 1 := rfl
    cases fs with
    | nil =>
      simp only [List.map_cons, List.map_nil, sizeEntries, writeEntries, hname, List.length_append, List.length_cons]
      omega
    | cons g fs =>
      rw [List.map_cons] at hrest ⊢
      rw [List.map_cons, sizeEntries, writeEntries, hname]
      simp only [List.length_append, List.length_cons]
      omega

theorem Writable.size_le (h : Writable d) : d.size ≤ 2 * (write d).length := by
  induction h with
  | text s =>
    simp only [size, write_text, writeString, List.cons_append, List.length_cons]
    omega
  | null => decide
  | bool b => cases b <;> decide
  | number n =>
    obtain ⟨c, cs, hcs, -⟩ := (Writable.number n).lead
    have hsize : (Document.number n).size = 1 := rfl
    rw [hsize, hcs, List.length_cons]
    omega
  | @list items _ ih =>
    have hitems := sizeItems_le ih
    simp only [size, write_list, List.cons_append, List.length_cons, List.length_append]
    omega
  | @record fields _ ih =>
    have hentries := sizeEntries_le ih
    change (Document.map (fields.map entry)).size ≤ 2 * (write (.map (fields.map entry))).length
    simp only [size, write_map, List.cons_append, List.length_cons, List.length_append]
    omega

theorem read?_write (h : Writable d) : read? (String.ofList (write d)) = some d := by
  have hread := h.recovered (2 * (write d).length + 2) [] (by have := h.size_le; omega) ends_nil
  rw [List.append_nil] at hread
  rw [read?]
  simp only [String.toList_ofList, hread]
  rfl

end AccessList.Json
