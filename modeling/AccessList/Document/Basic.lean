/-!
# Documents

A document is what text in a data format says before anybody asks what it means. Scalars keep their text and the
way they are written, because only the reader knows whether it wants a number or a word.
-/

namespace AccessList

inductive Style
  /-- Without quotes; the format says what the scalar stands for. -/
  | plain
  | quoted
  /-- As a block of lines taken as they are. -/
  | literal
deriving DecidableEq

inductive Document
  | scalar (style : Style) (s : String)
  | list (items : List Document)
  | map (entries : List (Document × Document))
  /-- A node under a tag that says what it is. -/
  | typed (tag : String) (d : Document)
  /-- Stands for the node at an anchor. -/
  | reference (anchor : Nat)
  /-- Well formed, but without a value; harmless as long as nothing reads it. -/
  | unreadable

namespace Document

@[match_pattern] def plain (raw : String) : Document := scalar .plain raw

@[match_pattern] def text (s : String) : Document := scalar .quoted s

def null : Document := plain "null"

def bool (b : Bool) : Document := plain (if b then "true" else "false")

def number (n : Nat) : Document := plain (toString n)

def optional : Option String → Document
  | none => null
  | some s => text s

def texts (ss : List String) : Document := list (ss.map text)

def record (fields : List (String × Document)) : Document := map (fields.map fun (name, d) => (text name, d))

mutual
/-- The number of nodes, the end of a collection counted too. -/
def size : Document → Nat
  | scalar .. => 1
  | list items => sizeItems items + 2
  | map entries => sizeEntries entries + 2
  | typed _ d => d.size
  | reference _ => 1
  | unreadable => 1
def sizeItems : List Document → Nat
  | [] => 0
  | d :: ds => d.size + sizeItems ds
def sizeEntries : List (Document × Document) → Nat
  | [] => 0
  | (k, d) :: es => k.size + d.size + sizeEntries es
end

end Document

inductive Format
  | json
  | yaml
deriving DecidableEq

structure Source where
  format : Format
  root : Document
  anchored : Nat → Option Document := fun _ => none

end AccessList
