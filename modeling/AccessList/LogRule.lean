import AccessList.Document.Scalar
import AccessList.Text.Alphanumeric
import AccessList.Text.Blank
import AccessList.Text.Pattern
import AccessList.Text.Wrap

/-!
# Rules of the log

A log level is a list of rules with commas between them. A rule says how grave an event has to be to be shown. It
may be for some parts of the program only, for what happens in a span, or for events with a field. Of the rules for
an event the closest one decides.
-/

namespace AccessList

structure LogRule where
  /-- How the names of the parts start that the rule is for. -/
  target : List Char := []
  span : Option (List Char) := none
  /-- The name of a field, and the value it has to have. -/
  field : Option (List Char × Option (List Char)) := none
  /-- How many of the levels are shown: none at 0, only errors at 1, all five at 5. -/
  level : Nat := 5

namespace LogRule

inductive Fault
  | malformed
  /-- A part of the rule would end within a character. -/
  | splitCharacter
deriving DecidableEq

/-! ## Parts -/

def levelNames : List String := ["off", "error", "warn", "info", "debug", "trace"]

def level? (word : List Char) : Option Nat :=
  (Text.unsigned? 5 word).or (levelNames.findIdx? (· == (String.ofList word).toLower))

def dropBytes : Nat → List Char → Except Fault (List Char)
  | 0, s => .ok s
  | _ + 1, [] => .ok []
  | n + 1, c :: s => if c.utf8Size ≤ n + 1 then dropBytes (n + 1 - c.utf8Size) s else .error .splitCharacter

def takeBytes : Nat → List Char → Except Fault (List Char)
  | 0, _ => .ok []
  | _ + 1, [] => .ok []
  | n + 1, c :: s =>
    if c.utf8Size ≤ n + 1 then do pure (c :: (← takeBytes (n + 1 - c.utf8Size) s)) else .error .splitCharacter

def slice (text : List Char) (start stop : Nat) : Except Fault (List Char) := do
  takeBytes (stop - start) (← dropBytes start text)

def isFieldValue (s : List Char) : Bool :=
  Text.isPattern s ||
    match s with
    | '+' :: s => (Scalar.decimal? s).isSome || ["inf", "infinity", "nan"].contains (String.ofList s).toLower
    | _ => false

/-- A name, and a value after an equals sign; what a second sign parts off does not count. -/
def readField (s : List Char) : Except Fault (List Char × Option (List Char)) :=
  match s, Text.splitOn '=' s with
  | [], _ => .error .malformed
  | _, name :: value :: _ => if isFieldValue value then .ok (name, some value) else .error .malformed
  | s, _ => .ok (s, none)

/-! ## Reading -/

inductive Stage
  | start
  | word
  | span (start : Nat)
  | field (start : Nat)
  | afterField
  | afterSpan
  | level (start : Nat)

/-- Takes the character at a place. Places are counted without the blanks around the rule, but they cut out of the
text with the blanks. -/
def step (text : List Char) (rule : LogRule) : Stage → (place : Nat) → Char → Except Fault (LogRule × Stage)
  | .start, i, '[' => pure (rule, .span (i + 1))
  | .start, _, c =>
    if ['-', ':', '_'].contains c || Text.isAlphanumeric c then pure (rule, .word) else throw .malformed
  | .word, i, '=' => do pure ({ rule with target := ← slice text 0 i }, .level (i + 1))
  | .word, i, '[' => do pure ({ rule with target := ← slice text 0 i }, .span (i + 1))
  | .span k, i, ']' => do pure ({ rule with span := some (← slice text k i) }, .afterSpan)
  | .span k, i, '\x7b' => do
    let name ← slice text k i
    pure ({ rule with span := if name.isEmpty then none else some name }, .field (i + 1))
  | .field k, i, '\x7d' => do pure ({ rule with field := some (← readField (← slice text k i)) }, .afterField)
  | .afterField, _, ']' => pure (rule, .afterSpan)
  | .afterSpan, i, '=' => pure (rule, .level (i + 1))
  | .afterField, _, _ | .afterSpan, _, _ => throw .malformed
  | stage, _, _ => pure (rule, stage)

def steps (text : List Char) (rule : LogRule) (stage : Stage) :
    (place : Nat) → List Char → Except Fault (LogRule × Stage)
  | _, [] => pure (rule, stage)
  | i, c :: s => do
    let (rule, stage) ← step text rule stage i c
    steps text rule stage (i + c.utf8Size) s

def finish (text : List Char) (rule : LogRule) : Stage → Except Fault LogRule
  | .word => pure ((level? text).elim { rule with target := text } ({ rule with level := · }))
  | .level k => do
    let word ← dropBytes k text
    if word.isEmpty then pure rule else (level? word).elim (throw .malformed) fun level => pure { rule with level }
  | .afterSpan => pure rule
  | _ => throw .malformed

def parse (text : List Char) : Except Fault LogRule := do
  let (rule, stage) ← steps text {} .start 0 (Text.trimEnd (Text.trimStart text))
  finish text rule stage

def parseAll (level : String) : Except Fault (List LogRule) :=
  ((Text.splitOn ',' level.toList).filter (!·.isEmpty)).filterMapM fun part =>
    match parse part with
    | .ok rule => .ok (some rule)
    | .error .malformed => .ok none
    | .error fault => .error fault

/-! ## Failures -/

def failureTarget : List Char := "aclgen_cisco".toList

def failureFields : List (List Char) := ["error".toList, "message".toList]

/-- Whether a rule is for failures. They happen in no span, and outside of spans no rule looks at the value of a
field. -/
def isForFailures (r : LogRule) : Bool :=
  r.target.isPrefixOf failureTarget && r.span.isNone &&
    r.field.all fun (name, value) => failureFields.contains name && value.isNone

/-- How close a rule for failures is: by its target, and then by its field. -/
def closeness (r : LogRule) : Nat :=
  (failureFields.length + 1) * r.target.length + r.field.elim 0 fun (name, _) => failureFields.idxOf name + 1

/-- The closer of two rules; of two that are as close, the later one. -/
def closer (old : Option LogRule) (new : LogRule) : Option LogRule :=
  if old.any fun old => new.closeness < old.closeness then old else some new

/-- Whether failures are shown. Without any rule they are. -/
def showFailures (rules : List LogRule) : Bool :=
  ((rules.filter isForFailures).foldl closer none).elim rules.isEmpty (0 < ·.level)

end LogRule

end AccessList
