import AccessList.Document.Yaml.Token

/-!
# YAML tags and directives

A tag is written out between angles, or by a handle that stands for the start of it. Directives before a document
say what handles stand for.
-/

namespace AccessList.Yaml

/-! ## Tags -/

/-- The characters of a tag; between angles a comma and brackets are among them. -/
def isTagChar (inAngles : Bool) (c : Char) : Bool :=
  isNameChar c || ";/?:@&=+$.!~*\x27()".toList.contains c || (inAngles && [',', '[', ']'].contains c)

def octetCount? (octet : Nat) : Option Nat :=
  if octet < 0x80 then some 1
  else if octet < 0xC0 then none
  else if octet < 0xE0 then some 2
  else if octet < 0xF0 then some 3
  else if octet < 0xF8 then some 4
  else none

def octet? : Input → Option (Nat × Input)
  | ('%', _) :: (a, _) :: (b, _) :: r => (Text.digits? 16 [a, b]).map (·, r)
  | _ => none

def moreOctets? : Nat → Input → Option (List Nat × Input)
  | 0, s => some ([], s)
  | n + 1, s => do
    let (o, s) ← octet? s
    if o / 64 = 2 then
      let (os, s) ← moreOctets? n s
      pure (o :: os, s)
    else none

def octetsChar? (s : Input) : Option (Option Char × Input) := do
  let (o, s) ← octet? s
  let (os, s) ← moreOctets? ((← octetCount? o) - 1) s
  let bytes := ((o :: os).map Nat.toUInt8).toByteArray
  pure ((String.fromUTF8? bytes).bind (·.toList.head?), s)

/-- The longest run of characters of a tag; `n` bounds their number. -/
def tagChars? (inAngles : Bool) : Nat → Input → Option (List (Option Char) × Input)
  | 0, _ => none
  | n + 1, s =>
    match s with
    | ('%', _) :: _ => do
      let (c, s) ← octetsChar? s
      let (cs, s) ← tagChars? inAngles n s
      pure (c :: cs, s)
    | (c, m) :: r =>
      if isTagChar inAngles c then (tagChars? inAngles n r).map fun (cs, s) => (some c :: cs, s)
      else some ([], (c, m) :: r)
    | [] => some ([], [])

def tagRun? (inAngles : Bool) (s : Input) : Option (List (Option Char) × Input) :=
  tagChars? inAngles (s.length + 1) s

/-- The text of a tag, if all of it makes characters; the character NUL ends it. -/
def tagText (cs : List (Option Char)) : Option String :=
  ((cs.takeWhile (· != some '\x00')).mapM id).map String.ofList

def angles? (s : Input) : Option (Token × Input) := do
  match ← tagRun? true s with
  | (c :: cs, ('>', _) :: s) => pure (.tag "" (tagText (c :: cs)), s)
  | _ => none

/-- What follows a handle with a second exclamation mark; without one, the handle is the mark alone. A mark alone
is the tag itself. -/
def shorthand? (s : Input) : Option (Token × Input) := do
  match span isNameChar s with
  | (name, ('!', _) :: s) =>
    match ← tagRun? false s with
    | ([], _) => none
    | (cs, s) => pure (.tag (String.ofList ('!' :: name ++ ['!'])) (tagText cs), s)
  | (name, s) =>
    let (cs, s) ← tagRun? false s
    let text := tagText (name.map some ++ cs)
    pure (if text = some "" then .tag "" (some "!") else .tag "!" text, s)

/-- A tag after its exclamation mark. A blank follows it, or a comma in a flow collection. -/
def tag? (inFlow : Bool) (s : Input) : Option (Token × Input) := do
  let (t, s) ← match s with
    | ('<', _) :: s => angles? s
    | s => shorthand? s
  if atBlank s || (inFlow && atChar (· == ',') s) then pure (t, s) else none

/-! ## Directives -/

def versionNumber? (s : Input) : Option (Nat × Input) :=
  let (ds, s) := span Char.isDigit s
  if ds.length ≤ 9 then (Text.digits? 10 ds).map (·, s) else none

def version? (s : Input) : Option (Token × Input) := do
  match ← versionNumber? (skipGaps s) with
  | (major, ('.', _) :: s) =>
    let (minor, s) ← versionNumber? s
    pure (.version major minor, s)
  | _ => none

def handle? : Input → Option (String × Input)
  | ('!', _) :: s =>
    match span isNameChar s with
    | (name, ('!', _) :: s) => some (String.ofList ('!' :: name ++ ['!']), s)
    | ([], s) => some ("!", s)
    | _ => none
  | _ => none

def handleRule? (s : Input) : Option (Token × Input) := do
  let (handle, s) ← handle? (skipGaps s)
  if !atChar isGap s then none
  else
    match ← tagRun? true (skipGaps s) with
    | ([], _) => none
    | (cs, s) => if atBlank s then pure (.handle handle (tagText cs), s) else none

def directive? (s : Input) : Option (Token × Input) := do
  let (name, s) := span isNameChar s
  if !atBlank s then none
  else
    let (t, s) ← match String.ofList name with
      | "YAML" => version? s
      | "TAG" => handleRule? s
      | _ => none
    let s ← lineEnd? s
    pure (t, s.drop 1)

end AccessList.Yaml
