import AccessList.Document.Yaml.Tag

/-!
# From YAML text to tokens

Block structure comes from columns: a deeper column opens a block, a shallower one closes it. Whether a scalar is
a mapping key shows only at the colon after it, so the place of a possible key is remembered, and the tokens for
the key and its mapping are inserted there.
-/

namespace AccessList.Yaml

/-- The place of a scalar or collection that a colon may still turn into a key. It is needed where nothing but a
key may stand. -/
structure PossibleKey where
  needed : Bool
  position : Nat
  mark : Mark

structure Lexer where
  tokens : Array Token := #[]
  /-- Column of the innermost block, and of those around it; -1 outside all blocks. -/
  indent : Int := -1
  outer : List Int := []
  keyAllowed : Bool := true
  /-- The possible key of the innermost flow collection, and of the levels around it. -/
  key : Option PossibleKey := none
  outerKeys : List (Option PossibleKey) := []

namespace Lexer

def inFlow (l : Lexer) : Bool := !l.outerKeys.isEmpty

def push (l : Lexer) (t : Token) : Lexer := { l with tokens := l.tokens.push t }

def keep? (m : Mark) : Option PossibleKey → Option (Option PossibleKey)
  | none => some none
  | some k =>
    if k.mark.line < m.line ∨ k.mark.index + 1024 < m.index then if k.needed then none else some none
    else some (some k)

def dropStale? (l : Lexer) (m : Mark) : Option Lexer := do
  pure { l with key := ← keep? m l.key, outerKeys := ← l.outerKeys.mapM (keep? m) }

def dropKey? (l : Lexer) : Option Lexer :=
  if l.key.any (·.needed) then none else some { l with key := none }

def saveKey? (l : Lexer) (m : Mark) : Option Lexer :=
  if l.keyAllowed then do
    let l ← l.dropKey?
    pure { l with key := some ⟨!l.inFlow && l.indent == m.column, l.tokens.size, m⟩ }
  else some l

def closeBlocks (column : Int) (l : Lexer) : List Int → Lexer
  | [] => l
  | o :: os =>
    if column < l.indent then closeBlocks column { l.push .blockEnd with indent := o, outer := os } os else l

def unroll (l : Lexer) (column : Int) : Lexer := if l.inFlow then l else closeBlocks column l l.outer

def roll (l : Lexer) (column : Nat) (position : Nat) (t : Token) : Lexer :=
  if l.inFlow || column ≤ l.indent then l
  else
    { l with
      indent := column
      outer := l.indent :: l.outer
      tokens := l.tokens.insertIdxIfInBounds position t }

/-- Spaces, comments and line ends before a token, and a mark of byte order at the start of a line. Tabs count
where they cannot be taken for indentation. -/
def skip (inFlow : Bool) (keyAllowed comment : Bool) : Input → Bool × Input
  | [] => (keyAllowed, [])
  | (c, m) :: r =>
    if isBreak c then skip inFlow (keyAllowed || !inFlow) false r
    else if isOrderMark c && m.column == 0 then skip inFlow keyAllowed false r
    else if comment then skip inFlow keyAllowed true r
    else if c == ' ' || (c == '\t' && (inFlow || !keyAllowed)) then skip inFlow keyAllowed false r
    else if c == '#' then skip inFlow keyAllowed true r
    else (keyAllowed, (c, m) :: r)

def endsName (s : Input) : Bool := atBlank s || atChar (fun c => "?:,]\x7d%@\x60".toList.contains c) s

def name? (s : Input) : Option (String × Input) :=
  let (name, r) := span isNameChar s
  if name.isEmpty || !endsName r then none else some (String.ofList name, r)

def isIndicator (c : Char) : Bool := "-?:,[]\x7b\x7d#&*!|>\x27\x22%@\x60".toList.contains c

def startsPlain (inFlow : Bool) (c : Char) (r : Input) : Bool :=
  (!isIndicator c && !isGap c) || (c == '-' && !atChar isGap r) ||
    (!inFlow && (c == '?' || c == ':') && !atBlank r)

def openFlow? (l : Lexer) (m : Mark) (t : Token) : Option Lexer := do
  let l ← l.saveKey? m
  pure { l.push t with outerKeys := l.key :: l.outerKeys, key := none, keyAllowed := true }

def closeFlow? (l : Lexer) (t : Token) : Option Lexer := do
  let l ← l.dropKey?
  match l.outerKeys with
  | [] => pure { l.push t with keyAllowed := false }
  | k :: ks => pure { l.push t with key := k, outerKeys := ks, keyAllowed := false }

def blockMark? (l : Lexer) (m : Mark) (block t : Token) (keyAllowed : Bool) : Option Lexer :=
  if !l.inFlow && !l.keyAllowed then none
  else do
    let l ← (l.roll m.column l.tokens.size block).dropKey?
    pure { l.push t with keyAllowed }

/-- A colon makes a key of what stands at the possible key, or has no key before it. -/
def value? (l : Lexer) (m : Mark) : Option Lexer :=
  match l.key with
  | some k =>
    let l := { l with tokens := l.tokens.insertIdxIfInBounds k.position .key, key := none, keyAllowed := false }
    some ((l.roll k.mark.column k.position .blockMapping).push .value)
  | none =>
    if l.inFlow then some { l.push .value with keyAllowed := false }
    else if !l.keyAllowed then none
    else some { (l.roll m.column l.tokens.size .blockMapping).push .value with keyAllowed := true }

def scalarToken (style : Style) (cs : List Char) : Token := .scalar style (String.ofList cs)

def token? (l : Lexer) (c : Char) (m : Mark) (r : Input) : Option (Lexer × Input) :=
  let s := (c, m) :: r
  if c == '%' && m.column == 0 then do
    let l ← (l.unroll (-1)).dropKey?
    let (t, r) ← directive? r
    pure ({ l.push t with keyAllowed := false }, r)
  else if atDocumentMark s then do
    let l ← (l.unroll (-1)).dropKey?
    pure ({ l.push (if c == '-' then .documentStart else .documentEnd) with keyAllowed := false }, s.drop 3)
  else if c == '[' then (l.openFlow? m .flowSequence).map (·, r)
  else if c == '\x7b' then (l.openFlow? m .flowMapping).map (·, r)
  else if c == ']' then (l.closeFlow? .flowSequenceEnd).map (·, r)
  else if c == '\x7d' then (l.closeFlow? .flowMappingEnd).map (·, r)
  else if c == ',' then l.dropKey?.map fun l => ({ l.push .comma with keyAllowed := true }, r)
  else if c == '-' && atBlank r then (l.blockMark? m .blockSequence .entry true).map (·, r)
  else if c == '?' && (l.inFlow || atBlank r) then (l.blockMark? m .blockMapping .key (!l.inFlow)).map (·, r)
  else if c == ':' && (l.inFlow || atBlank r) then (l.value? m).map (·, r)
  else if c == '&' || c == '*' then do
    let l ← l.saveKey? m
    let (name, r) ← name? r
    pure ({ l.push (if c == '&' then .anchor name else .reference name) with keyAllowed := false }, r)
  else if c == '!' then do
    let l ← l.saveKey? m
    let (t, r) ← tag? l.inFlow r
    pure ({ l.push t with keyAllowed := false }, r)
  else if (c == '|' || c == '>') && !l.inFlow then do
    let l ← l.dropKey?
    let (cs, r) ← blockScalar? (c == '>') l.indent r
    pure ({ l.push (scalarToken (if c == '|' then .literal else .quoted) cs) with keyAllowed := true }, r)
  else if c == '"' || c == '\x27' then do
    let l ← l.saveKey? m
    let (cs, r) ← quoted? (c == '"') (r.length + 1) r
    pure ({ l.push (scalarToken .quoted cs) with keyAllowed := false }, r)
  else if startsPlain l.inFlow c r then do
    let l ← l.saveKey? m
    let (cs, broken, r) ← plain? l.inFlow (l.indent + 1) (r.length + 2) s
    pure ({ l.push (scalarToken .plain cs) with keyAllowed := broken }, r)
  else none

def run? : Nat → Lexer → Input → Option (Array Token)
  | 0, _, _ => none
  | n + 1, l, s =>
    let (keyAllowed, s) := skip l.inFlow l.keyAllowed false s
    let l := { l with keyAllowed }
    match s with
    | [] => do
      let l ← (l.unroll (-1)).dropKey?
      pure l.tokens
    | (c, m) :: r => do
      let l ← l.dropStale? m
      let (l, r) ← (l.unroll m.column).token? c m r
      run? n l r

end Lexer

def tokens? (s : String) : Option (List Token) := do
  let s ← input s
  let ts ← Lexer.run? (s.length + 1) {} s
  pure ts.toList

end AccessList.Yaml
