import AccessList.Assemble
import AccessList.Files

/-!
# From policy files to configuration files

The name of a policy file decides its format and the name of its configuration file.
-/

namespace AccessList

def Format.ofPath (path : String) : Format :=
  match Path.extension? path with
  | some "yaml" | some "yml" => .yaml
  | _ => .json

def Policy.ofFile (path : String) (contents : Except IoError String) : Except PolicyError Policy :=
  match contents with
  | .error cause => .error (.io path cause)
  | .ok text => Policy.ofText (.ofPath path) path text

/-- The settings in a file; what keeps it from being read is no different from a misfit. -/
def Settings.ofFile (path : String) (contents : Except IoError String) : Except CompileError Settings :=
  match contents with
  | .error _ => .error (.settings path)
  | .ok text => (Settings.ofYaml? text).elim (.error (.settings path)) .ok

def renderFile (config : Config) (path : String) (contents : Except IoError String) :
    Except CompileError (Option String) := do
  let p ← (Policy.ofFile path contents).mapError .policy
  if (p.filtersFor config.platform).isEmpty then pure none
  else
    let text ← renderPolicy config (.standard config.settings.termNameMaxLength) p
    pure (some text)

def generateFile {m : Type → Type} [Monad m] (files : FileAccess m) (config : Config) (path dir : String) :
    m (Except CompileError (Option String)) := do
  match renderFile config path (← files.read path) with
  | .error e => pure (.error e)
  | .ok none => pure (.ok none)
  | .ok (some text) =>
    let target := Path.output path dir
    match ← files.write target text with
    | .error cause => pure (.error (.io target cause))
    | .ok () => pure (.ok (some target))

end AccessList
