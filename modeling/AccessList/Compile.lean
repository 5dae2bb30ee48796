import AccessList.Rule.Extended
import AccessList.Rule.ObjectGroup
import AccessList.Rule.Standard

/-!
# Compiling policies

Every filter for the platform is rendered term by term, a mixed one once as an extended and once as an inet6
filter. The first error ends the compilation.
-/

namespace AccessList

/-- The lines of a term; none where it was suppressed. -/
structure RenderedTerm where
  name : String
  lines : List String
deriving DecidableEq

structure RenderedFilter where
  header : Header
  name : String
  type : FilterType
  terms : List RenderedTerm
  groups : ObjectGroups
deriving DecidableEq

namespace Scope

def rendered (s : Scope) (type : FilterType) (t : Term) : Except CompileError (Option Suppression × List String) :=
  match type with
  | .standard => (s.standard t).map fun r => (r.suppression?, r.lines (StandardRule.text s.filter))
  | .extended => (s.extended .inet t).map fun r => (r.suppression?, r.lines (ExtendedRule.text .inet))
  | .inet6 => (s.extended .inet6 t).map fun r => (r.suppression?, r.lines (ExtendedRule.text .inet6))
  | .objectGroup => (s.objectGroup t).map fun r => (r.suppression?, r.lines GroupRule.text)

/-- Checks a term for the filter type, even one that comes to nothing. -/
def check (s : Scope) (type : FilterType) (t : Term) : Traced Unit :=
  match type with
  | .standard => s.checkStandard t
  | _ => pure ()

def render (s : Scope) (type : FilterType) (t : Term) : Traced (List String) := do
  let (why, lines) ← .ofExcept (s.rendered type t)
  .tell (why.map (.suppressed s.filter t.name)).toList
  pure lines

def expiryEvents (s : Scope) (t : Term) : List Event :=
  match t.expiration with
  | none => []
  | some date =>
    let soon := .expiresSoon s.filter t.name date s.config.settings.expInfoWeeks
    (if s.config.expiresSoon date then [soon] else []) ++
      if s.config.isExpired date then [.expired s.filter t.name date] else []

def prepare (s : Scope) (type : FilterType) (t : Term) : Traced (Option Term) := do
  let short := s.services.truncateName t.name
  .tell (if short = t.name then [] else [.truncated t.name short])
  match ← .ofExcept ((s.services.prepare { t with name := short } type.family).mapError .policy) with
  | none =>
    .tell [.inapplicable s.filter short]
    pure none
  | some t =>
    .tell (s.expiryEvents t)
    pure (if t.expiration.any s.config.isExpired then none else some t)

def terms (s : Scope) (type : FilterType) (gs : ObjectGroups) :
    List Term → Traced (List RenderedTerm × ObjectGroups)
  | [] => pure ([], gs)
  | t :: ts => do
    match ← s.prepare type t with
    | none => s.terms type gs ts
    | some t =>
      s.check type t
      let gs := if type = .objectGroup then gs.add t s.platform else gs
      let lines ← s.render type t
      let (rest, gs) ← s.terms type gs ts
      pure (⟨t.name, lines⟩ :: rest, gs)

end Scope

section
variable (config : Config) (services : Services)

def compilePass (header : Header) (ts : List Term) (type : FilterType) (name : String) :
    Traced RenderedFilter := do
  let (terms, groups) ← Scope.terms ⟨name, config, services⟩ type { filter := name } ts
  .tell [.compiled name type terms.length (terms.filter (·.lines.isEmpty)).length]
  pure { header, name, type, terms, groups }

/-- What a header asks for in its second option; an extended filter without one. -/
def filterSelection (header : Header) (filter : String) : Except CompileError FilterSelection :=
  match (header.optionsFor config.platform)[1]? with
  | none => .ok (.single .extended)
  | some type =>
    (FilterSelection.parse type).mapError fun unknown => .unsupportedType filter unknown.word config.platform

/-- The passes of a filter. Its own name is what has to suit the type, not the name of the pass. -/
def compilePasses (f : Filter) (name : String) (selection : FilterSelection) :
    List FilterType → Traced (List RenderedFilter)
  | [] => pure []
  | type :: types => do
    .ofExcept (type.checkName name)
    let rendered ← compilePass config services f.header f.terms type (selection.passName name type)
    let rest ← compilePasses f name selection types
    pure (rendered :: rest)

def compileFilter (f : Filter) : Traced (List RenderedFilter) :=
  match f.header.filterName? config.platform with
  | none => .ofExcept (.error (.unnamedFilter config.platform))
  | some name => do
    let selection ← .ofExcept (filterSelection config f.header name)
    compilePasses config services f name selection selection.passes

def compileFilters : List Filter → Traced (List RenderedFilter)
  | [] => pure []
  | f :: fs => do
    let rendered ← compileFilter config services f
    let rest ← compileFilters fs
    pure (rendered ++ rest)

def Policy.compile (p : Policy) : Traced (List RenderedFilter) :=
  compileFilters config services (p.filtersFor config.platform)

end

end AccessList
