import AccessList.Document.Yaml.Lexer

/-!
# From YAML tokens to a document

Anchors are numbered, and a reference holds the number that its name has where it stands. What a number stands for
is settled at the end of the document, so that a node may also refer to itself or to what comes after it.
-/

namespace AccessList.Yaml

structure Progress where
  tokens : List Token
  /-- What the handles of tags are short for. -/
  handles : List (String × Option String)
  /-- The names of anchors with their numbers. -/
  names : List (String × Nat) := []
  /-- The anchored nodes with their numbers, in the order in which they start. -/
  nodes : Array (Nat × Document) := #[]

abbrev Parser := StateT Progress Option

def absent : Document := .plain ""

/-! ## Tokens -/

def endsItem : Token → Bool
  | .entry | .blockEnd => true
  | _ => false

def endsEntry : Token → Bool
  | .key | .value | .blockEnd => true
  | _ => false

def endsIndentless : Token → Bool
  | .entry | .key | .value | .blockEnd => true
  | _ => false

def endsFlowItem : Token → Bool
  | .comma | .flowSequenceEnd => true
  | _ => false

def endsFlowEntry : Token → Bool
  | .comma | .flowMappingEnd => true
  | _ => false

def isValue : Token → Bool
  | .value => true
  | _ => false

def isDocumentMark : Token → Bool
  | .documentStart | .documentEnd => true
  | _ => false

namespace Parser

def skip : Parser Unit := modify fun p => { p with tokens := p.tokens.drop 1 }

def isAt (q : Token → Bool) : Parser Bool := do pure ((← get).tokens.head?.any q)

def comma (first : Bool) : Parser Unit := do
  match first, (← get).tokens with
  | true, _ => pure ()
  | false, .comma :: _ => skip
  | false, _ => failure

/-! ## Anchors and tags -/

/-- The text of a tag; a tag that is no text says as little as an empty one. -/
def tag (handle : String) (rest : Option String) : Parser String := do
  if handle.isEmpty then pure (rest.getD "")
  else
    match (← get).handles.lookup handle with
    | some stands => pure ((stands.bind fun s => rest.map (s ++ ·)).getD "")
    | none => failure

def properties : Parser (Option String × Option String) := do
  match (← get).tokens with
  | .anchor name :: .tag handle rest :: _ | .tag handle rest :: .anchor name :: _ => do
    skip
    skip
    pure (some name, some (← tag handle rest))
  | .anchor name :: _ => do
    skip
    pure (some name, none)
  | .tag handle rest :: _ => do
    skip
    pure (none, some (← tag handle rest))
  | _ => pure (none, none)

/-- Gives the number of the names so far to a name and to the node that starts under it. A name that comes again is
counted once, so two nodes may get one number. Answers with the place of the node. -/
def beginAnchored (name : String) : Parser Nat := do
  let p ← get
  let number := p.names.length
  let names := (name, number) :: p.names.filter (·.1 != name)
  set { p with names, nodes := p.nodes.push (number, .unreadable) }
  pure p.nodes.size

def endAnchored (place : Nat) (d : Document) : Parser Unit :=
  modify fun p => { p with nodes := p.nodes.modify place fun (number, _) => (number, d) }

/-- A node under a tag. The mark alone says nothing of a scalar that is there. -/
def underTag (tag : Option String) (d : Option Document) : Document :=
  match tag, d with
  | none, d => d.getD absent
  | some tag, none => .typed tag absent
  | some tag, some (.scalar style s) => if tag = "!" then .scalar style s else .typed tag (.scalar style s)
  | some tag, some d => .typed tag d

/-! ## Nodes -/

mutual
/-- A node; `n` bounds the number of steps. Only a node in a block may hold blocks, and only the parts of a block
mapping may be sequences at its own column. -/
def node : Nat → (block indentless : Bool) → Parser Document
  | 0, _, _ => failure
  | n + 1, block, indentless => do
    match (← get).tokens with
    | .reference name :: _ => do
      skip
      match (← get).names.lookup name with
      | some number => pure (.reference number)
      | none => failure
    | _ => do
      let (name, tag) ← properties
      let place ← name.mapM beginAnchored
      let d ← content n block indentless
      if d.isNone && name.isNone && tag.isNone then failure
      else
        let d := underTag tag d
        if let some place := place then endAnchored place d
        pure d
/-- What a node holds besides its properties; nothing where the next token starts no node. -/
def content : Nat → (block indentless : Bool) → Parser (Option Document)
  | 0, _, _ => failure
  | n + 1, block, indentless => do
    match (← get).tokens, block, indentless with
    | .scalar style s :: _, _, _ => do
      skip
      pure (some (.scalar style s))
    | .flowSequence :: _, _, _ => do
      skip
      pure (some (.list (← flowItems n true)))
    | .flowMapping :: _, _, _ => do
      skip
      pure (some (.map (← flowEntries n true)))
    | .blockSequence :: _, true, _ => do
      skip
      pure (some (.list (← blockItems n)))
    | .blockMapping :: _, true, _ => do
      skip
      pure (some (.map (← blockEntries n)))
    | .entry :: _, _, true => do pure (some (.list (← indentlessItems n)))
    | _, _, _ => pure none
def nodeUnless : Nat → (Token → Bool) → (block indentless : Bool) → Parser Document
  | 0, _, _, _ => failure
  | n + 1, stop, block, indentless => do
    if ← isAt stop then pure absent else node n block indentless
def entryValue : Nat → (Token → Bool) → (block : Bool) → Parser Document
  | 0, _, _ => failure
  | n + 1, stop, block => do
    if ← isAt isValue then
      skip
      nodeUnless n stop block block
    else pure absent
def blockItems : Nat → Parser (List Document)
  | 0 => failure
  | n + 1 => do
    match (← get).tokens with
    | .entry :: _ => do
      skip
      let d ← nodeUnless n endsItem true false
      pure (d :: (← blockItems n))
    | .blockEnd :: _ => do
      skip
      pure []
    | _ => failure
def indentlessItems : Nat → Parser (List Document)
  | 0 => failure
  | n + 1 => do
    match (← get).tokens with
    | .entry :: _ => do
      skip
      let d ← nodeUnless n endsIndentless true false
      pure (d :: (← indentlessItems n))
    | _ => pure []
def blockEntries : Nat → Parser (List (Document × Document))
  | 0 => failure
  | n + 1 => do
    match (← get).tokens with
    | .key :: _ => do
      skip
      let k ← nodeUnless n endsEntry true true
      let d ← entryValue n endsEntry true
      pure ((k, d) :: (← blockEntries n))
    | .blockEnd :: _ => do
      skip
      pure []
    | _ => failure
/-- The key of a single entry in a flow sequence. The token that ends an absent key is lost. -/
def singleKey : Nat → Parser Document
  | 0 => failure
  | n + 1 => do
    if ← isAt fun t => endsFlowItem t || isValue t then
      skip
      pure absent
    else node n false false
def flowItems : Nat → (first : Bool) → Parser (List Document)
  | 0, _ => failure
  | n + 1, first => do
    unless ← isAt fun t => t matches .flowSequenceEnd do comma first
    match (← get).tokens with
    | .flowSequenceEnd :: _ => do
      skip
      pure []
    | .key :: _ => do
      skip
      let k ← singleKey n
      let d ← entryValue n endsFlowItem false
      pure (.map [(k, d)] :: (← flowItems n false))
    | _ => do
      let d ← node n false false
      pure (d :: (← flowItems n false))
def flowEntries : Nat → (first : Bool) → Parser (List (Document × Document))
  | 0, _ => failure
  | n + 1, first => do
    unless ← isAt fun t => t matches .flowMappingEnd do comma first
    match (← get).tokens with
    | .flowMappingEnd :: _ => do
      skip
      pure []
    | .key :: _ => do
      skip
      let k ← nodeUnless n (fun t => endsFlowEntry t || isValue t) false false
      let d ← entryValue n endsFlowEntry false
      pure ((k, d) :: (← flowEntries n false))
    | _ => do
      let k ← node n false false
      pure ((k, absent) :: (← flowEntries n false))
end

end Parser

/-! ## Documents -/

def stockHandles : List (String × Option String) := [("!", some "!"), ("!!", some "tag:yaml.org,2002:")]

/-- Reads directives, none of them given twice: whether there are any, the handles and the tokens that follow. -/
def directives? (versioned : Bool) (handles : List (String × Option String)) :
    List Token → Option (Bool × List (String × Option String) × List Token)
  | .version major minor :: ts =>
    if versioned || major != 1 || !(minor == 1 || minor == 2) then none else directives? true handles ts
  | .handle name stands :: ts =>
    if (handles.lookup name).isSome then none else directives? versioned ((name, stands) :: handles) ts
  | ts => some (versioned || !handles.isEmpty, handles ++ stockHandles, ts)

def root : Parser Document := do
  let ts := (← get).tokens
  match ts with
  | [] => pure absent
  | .documentStart :: _ => do
    Parser.skip
    if ts.length = 1 || (← Parser.isAt isDocumentMark) then pure absent
    else Parser.node (5 * ts.length + 5) true false
  | _ => Parser.node (5 * ts.length + 5) true false

/-- The one document of a text. Directives come before a mark of its start; nothing but marks of its end comes
after it. -/
def read? (s : String) : Option Source := do
  let (directed, handles, ts) ← directives? false [] (← tokens? s)
  if directed && !ts.head?.any (· matches .documentStart) then none
  else
    let (d, p) ← root.run { tokens := ts, handles }
    if p.tokens.all (· matches .documentEnd) then
      pure { format := .yaml, root := d, anchored := fun number => p.nodes.toList.reverse.lookup number }
    else none

end AccessList.Yaml
