import AccessList.Date
import AccessList.Document.Scalar

/-!
# Reading values out of documents

The format decides which shapes may take the place of others. In YAML any scalar may be read as text and an absent
node as an empty collection; in JSON a record may also be the list of its fields in order. Nesting is bounded, but
only where something is read, and so is the number of references that a reading may follow.
-/

namespace AccessList

structure Reading where
  format : Format
  anchored : Nat → Option Document
  depth : Nat

abbrev Attempt := StateT Nat Option

abbrev Reader (α : Type) := Reading → Document → Attempt α

abbrev Fields := List (String × Document)

def Format.maxDepth : Format → Nat
  | json => 127
  | yaml => 128

/-- Reads the whole document. A document may be larger than it is written by references, but not without limit. -/
def Reader.read {α : Type} (r : Reader α) (s : Source) : Option α :=
  (r ⟨s.format, s.anchored, s.format.maxDepth⟩ s.root).run' (100 * s.root.size)

def Reader.ofJson {α : Type} (r : Reader α) (d : Document) : Option α := r.read { format := .json, root := d }

namespace Document

def untyped : Document → Document
  | typed _ d => d
  | d => d

def tag? : Document → Option String
  | typed tag _ => some tag
  | _ => none

end Document

namespace Reading

def enter (c : Reading) : Attempt Reading :=
  match c.depth with
  | 0 => failure
  | n + 1 => pure { c with depth := n }

/-- A node itself; a reference stands for the node at its anchor. -/
def resolve (c : Reading) (d : Document) : Attempt Document :=
  match d with
  | .reference anchor => do
    match ← get with
    | 0 => failure
    | n + 1 =>
      set n
      c.anchored anchor
  | d => pure d

def isAbsent (c : Reading) (d : Document) : Bool :=
  match d.untyped with
  | .plain raw => c.format == .yaml && raw.isEmpty
  | _ => false

/-- The text of a scalar that may stand for a value of a core type: one without quotes, or in YAML a literal block
under the tag of the type. -/
def typedText? (c : Reading) (type : String) : Document → Option String
  | .plain raw => some raw
  | .typed _ (.plain raw) => some raw
  | .typed tag (.scalar .literal raw) => if c.format = .yaml ∧ tag = Scalar.coreTag type then some raw else none
  | _ => none

end Reading

namespace Reader

def text : Reader String := fun c d => do
  match c.format, (← c.resolve d).untyped with
  | .yaml, .scalar _ s => pure s
  | .json, .text s => pure s
  | _, _ => failure

def bool : Reader Bool := fun c d => do
  match (c.typedText? "bool" (← c.resolve d)).bind (Scalar.of? c.format .plain) with
  | some (.bool b) => pure b
  | _ => failure

def natural (max : Nat) : Reader Nat := fun c d => do
  match (c.typedText? "int" (← c.resolve d)).bind (Scalar.of? c.format .plain) with
  | some (.unsigned n) => if n ≤ max then pure n else failure
  | _ => failure

def date : Reader Date := fun c d => do Date.ofText? (← text c d)

/-- Absent where nothing or a null word stands without quotes. A tag other than that of null makes a value of it,
and the tag of null admits null words only. -/
def optional {α : Type} (read : Reader α) : Reader (Option α) := fun c d => do
  match ← c.resolve d with
  | .plain raw =>
    if Scalar.of? c.format .plain raw = some .null then pure none else some <$> read c (.plain raw)
  | .typed tag (.plain raw) =>
    if tag ≠ Scalar.coreTag "null" then some <$> read c (.typed tag (.plain raw))
    else if Scalar.isNullWord raw then pure none
    else failure
  | d => some <$> read c d

def list {α : Type} (read : Reader α) : Reader (List α) := fun c d => do
  let d ← c.resolve d
  match d.untyped with
  | .list items => do
    let c ← c.enter
    items.mapM (read c)
  | _ => if c.isAbsent d then pure [] else failure

/-- One of a few names. In JSON the name may also be the only field of a record, with nothing in it; in YAML it may
be a tag of nothing. -/
def named {α : Type} (ofName? : String → Option α) : Reader α := fun c d => do
  match c.format, ← c.resolve d with
  | .json, .map [(.text s, .plain "null")] => ofName? s
  | .yaml, .typed tag d =>
    if Scalar.isLocalTag tag then
      match d with
      | .plain raw => if raw.isEmpty || Scalar.isNullWord raw then ofName? (tag.drop 1).toString else failure
      | _ => failure
    else do ofName? (← text c d)
  | _, d => do ofName? (← text c d)

/-- Entries whose names are among `names`; others are left out, or refused in a `strict` record. A name that
counts may not come twice. -/
def known? {α : Type} (names : List String) (strict : Bool) (entries : List (String × α)) :
    Option (List (String × α)) :=
  if strict && entries.any (fun (k, _) => !names.contains k) then none
  else
    let known := entries.filter fun (k, _) => names.contains k
    if (known.map (·.1)).Nodup then some known else none

def record (names : List String) (strict : Bool) : Reader (Reading × Fields) := fun c d => do
  let d ← c.resolve d
  match d.untyped with
  | .map entries => do
    let inner ← c.enter
    let entries ← entries.mapM fun (k, d) => do pure (← text c k, d)
    pure (inner, ← known? names strict entries)
  | .list items =>
    if c.format = .json ∧ items.length ≤ names.length then do pure (← c.enter, names.zip items) else failure
  | _ => if c.isAbsent d then pure (c, []) else failure

end Reader

def Fields.read {α : Type} (fs : Fields) (c : Reading) (name : String) (default : α) (read : Reader α) :
    Attempt α :=
  match fs.lookup name with
  | none => pure default
  | some d => read c d

def Fields.require {α : Type} (fs : Fields) (c : Reading) (name : String) (read : Reader α) : Attempt α := do
  read c (← fs.lookup name)

/-! ## Content -/

inductive Content
  | scalar (s : Scalar)
  | list (items : List Content)
  | map (entries : List (Content × Content))

/-- Everything in a node, in at most `n` collections within each other. A tag of the document's own has no
content. -/
def Reader.content : Nat → Reader Content
  | n, c, d => do
    let d ← c.resolve d
    match d.tag?, n, d.untyped with
    | none, _, .scalar style s => do pure (.scalar (← Scalar.of? c.format style s))
    | some tag, _, .scalar _ s =>
      if Scalar.isLocalTag tag then failure else do pure (.scalar (← Scalar.ofTyped tag s))
    | tag, n + 1, .list items =>
      if tag.any Scalar.isLocalTag then failure else do pure (.list (← items.mapM (content n c)))
    | tag, n + 1, .map entries =>
      if tag.any Scalar.isLocalTag then failure
      else do pure (.map (← entries.mapM fun (k, d) => do pure (← content n c k, ← content n c d)))
    | _, _, _ => failure

end AccessList
