import AccessList.Generate
import AccessList.LogRule

/-!
# The command line

Arguments name policy files and say how to render them. A run takes the files in order and ends at the first that
fails; what it wrote by then stays.
-/

namespace AccessList

structure Arguments where
  policies : List String := []
  outputDir : Option String := none
  settings : Option String := none
  expInfo : Option Nat := none
  date : Option Date := none
  logLevel : Option String := none
  print : Bool := false

inductive Stop
  | invalid
  | version
  | help
deriving DecidableEq

inductive ValueFlag
  | outputDir
  | settings
  | expInfo
  | date
  | logLevel
deriving DecidableEq

inductive Flag
  | value (f : ValueFlag)
  | print
  | stop (s : Stop)
deriving DecidableEq

namespace Flag

def long? : String → Option Flag
  | "output-dir" => some (value .outputDir)
  | "config" => some (value .settings)
  | "exp-info" => some (value .expInfo)
  | "date" => some (value .date)
  | "log-level" => some (value .logLevel)
  | "stdout" => some print
  | "version" => some (stop .version)
  | "help" => some (stop .help)
  | _ => none

def short? : Char → Option Flag
  | 'o' => some (value .outputDir)
  | 'c' => some (value .settings)
  | 'l' => some (value .logLevel)
  | 'V' => some (stop .version)
  | 'h' => some (stop .help)
  | _ => none

end Flag

namespace Arguments

def nonempty? (s : String) : Option String := if s.isEmpty then none else some s

def once? {α : Type} (old new : Option α) : Option (Option α) := if old.isSome then none else new.map some

def set? (a : Arguments) (f : ValueFlag) (v : String) : Option Arguments :=
  match f with
  | .outputDir => (once? a.outputDir (nonempty? v)).map ({ a with outputDir := · })
  | .settings => (once? a.settings (nonempty? v)).map ({ a with settings := · })
  | .expInfo => (once? a.expInfo (Text.unsigned? Settings.maxNumber v.toList)).map ({ a with expInfo := · })
  | .date => (once? a.date (Date.ofText? v)).map ({ a with date := · })
  | .logLevel => (once? a.logLevel (some v)).map ({ a with logLevel := · })

def addPolicy? (a : Arguments) (path : String) : Option Arguments :=
  (nonempty? path).map fun path => { a with policies := a.policies ++ [path] }

inductive Shape
  | path
  | endOfFlags
  | flag (f : Flag) (attached : Option String)
  | unknown

def shape (arg : String) : Shape :=
  match arg.toList with
  | ['-'] => .path
  | ['-', '-'] => .endOfFlags
  | '-' :: '-' :: cs =>
    let name := String.ofList (cs.takeWhile (· != '='))
    match Flag.long? name, cs.dropWhile (· != '=') with
    | none, _ => .unknown
    | some f, [] => .flag f none
    | some f, _ :: v => .flag f (some (String.ofList v))
  | '-' :: c :: cs =>
    match Flag.short? c, cs with
    | none, _ => .unknown
    | some (.value f), [] => .flag (.value f) none
    | some (.value f), '=' :: v => .flag (.value f) (some (String.ofList v))
    | some (.value f), v => .flag (.value f) (some (String.ofList v))
    | some f, _ => .flag f none
  | _ => .path

def orInvalid (a : Option Arguments) : Except Stop Arguments := a.elim (.error .invalid) .ok

/-- Takes arguments from left to right; the first that stops the run decides how. -/
def take (a : Arguments) : List String → Except Stop Arguments
  | [] => .ok a
  | arg :: rest =>
    match shape arg, rest with
    | .path, rest => do (← orInvalid (a.addPolicy? arg)).take rest
    | .endOfFlags, rest => rest.foldlM (fun a path => orInvalid (a.addPolicy? path)) a
    | .unknown, _ => .error .invalid
    | .flag (.stop s) none, _ => .error s
    | .flag .print none, rest => if a.print then .error .invalid else { a with print := true }.take rest
    | .flag (.value f) (some v), rest => do (← orInvalid (a.set? f v)).take rest
    | .flag (.value f) none, v :: rest =>
      match shape v with
      | .path => do (← orInvalid (a.set? f v)).take rest
      | _ => .error .invalid
    | .flag _ _, _ => .error .invalid

def parse (args : List String) : Except Stop Arguments := do
  let a ← ({} : Arguments).take args
  if a.policies.isEmpty then throw .invalid else pure a

def logRules (a : Arguments) : Except LogRule.Fault (List LogRule) := LogRule.parseAll (a.logLevel.getD "info")

end Arguments

structure Report where
  exit : Nat
  failure : Option String := none
deriving DecidableEq

def chain (doing : String) (e : CompileError) : String :=
  doing ++ ": " ++ e.message ++ (e.source?.elim "" fun cause => ": " ++ cause.message)

def versionText : String := "aclgen-cisco 0.1.0\n"

def helpText : String :=
  "Cisco IOS access-list generator\n\nUsage: aclgen-cisco [OPTIONS] <POLICIES>...\n\nOptions:\n" ++
  "  -o, --output-dir <OUTPUT_DIR>  Directory generated files are written to [default: .]\n" ++
  "  -c, --config <CONFIG>          Generator configuration file (YAML)\n" ++
  "      --exp-info <EXP_INFO>      Warn about terms expiring within this many weeks\n" ++
  "      --date <DATE>              Compilation date (YYYY-MM-DD), defaults to today\n" ++
  "  -l, --log-level <LOG_LEVEL>    Log level (trace, debug, info, warn, error) [default: info]\n" ++
  "      --stdout                   Print generated configuration instead of writing files\n" ++
  "  -h, --help                     Print help\n  -V, --version                  Print version\n"

section
variable {m : Type → Type} [Monad m] (files : FileAccess m)

/-- The settings of a run: those of the file, with what the arguments say instead. -/
def Arguments.load (a : Arguments) : m (Except CompileError Settings) := do
  let base ← match a.settings with
    | none => pure (.ok {})
    | some path => do pure (Settings.ofFile path (← files.read path))
  pure (base.map fun s =>
    { s with expInfoWeeks := a.expInfo.getD s.expInfoWeeks, today := a.date.or s.today })

def Arguments.process (a : Arguments) (config : Config) (path : String) : m (Except CompileError Unit) := do
  if a.print then
    match renderFile config path (← files.read path) with
    | .error e => pure (.error e)
    | .ok none => pure (.ok ())
    | .ok (some text) =>
      files.print (text ++ "\n")
      pure (.ok ())
  else
    pure ((← generateFile files config path (a.outputDir.getD ".")).map fun _ => ())

def Arguments.processAll (a : Arguments) (config : Config) : List String → m (Option String)
  | [] => pure none
  | path :: rest => do
    match ← a.process files config path with
    | .error e => pure (some (chain ("rendering " ++ path) e))
    | .ok () => a.processAll config rest

def Arguments.run (a : Arguments) (localDate : Date) : m Report := do
  match a.logRules with
  | .error _ => pure { exit := 101 }
  | .ok rules =>
    let failure ← match ← a.load files with
      | .error e => pure (some (chain ("loading configuration " ++ a.settings.getD "") e))
      | .ok settings => a.processAll files (settings.on localDate) a.policies
    match failure with
    | none => pure { exit := 0 }
    | some text => pure { exit := 1, failure := if LogRule.showFailures rules then some text else none }

def runCommand (localDate : Date) (args : List String) : m Report :=
  match Arguments.parse args with
  | .error .invalid => pure { exit := 2 }
  | .error .version => do
    files.print versionText
    pure { exit := 0 }
  | .error .help => do
    files.print helpText
    pure { exit := 0 }
  | .ok a => a.run files localDate

end

end AccessList
