import AccessList.Document.Json
import AccessList.Document.Yaml.Node
import AccessList.Policy.Document
import AccessList.Text.Quoted

/-!
# Loading policies

A loaded policy is well formed as a document and has no term that every filter would refuse.
-/

namespace AccessList

inductive IoError
  | notFound
  | isDirectory
  | notDirectory
  | notUtf8
  | nameTooLong
  /-- A path holds the character that ends paths. -/
  | endInName
  | other (text : String)
deriving DecidableEq

def IoError.message : IoError → String
  | notFound => "No such file or directory (os error 2)"
  | isDirectory => "Is a directory (os error 21)"
  | notDirectory => "Not a directory (os error 20)"
  | notUtf8 => "stream did not contain valid UTF-8"
  | nameTooLong => "File name too long (os error 36)"
  | endInName => "file name contained an unexpected NUL byte"
  | other text => text

inductive TermFault
  | noAction
  | badRange (r : PortRange)
deriving DecidableEq

def TermFault.message : TermFault → String
  | noAction => "term has no action"
  | badRange r => "invalid port range " ++ r.text

inductive PolicyError
  | io (path : String) (cause : IoError)
  | parse (origin : String)
  | unnamedTerm
  | badTerm (term : String) (fault : TermFault)
  /-- Connection state was asked of protocols that have none. -/
  | established (term : String) (protocols : List String)
deriving DecidableEq

def PolicyError.message : PolicyError → String
  | io path cause => "Failed to read policy file '" ++ path ++ "': " ++ cause.message
  | parse origin => "Failed to parse policy '" ++ origin ++ "'"
  | unnamedTerm => "Invalid term '<unnamed>': term has no name"
  | badTerm term fault => "Invalid term '" ++ term ++ "': " ++ fault.message
  | established term protocols =>
    "Established option supplied with inappropriate protocol(s) " ++ Text.quoteList protocols ++
      " in term " ++ term

namespace Term

def badRange? (t : Term) : Option PortRange := (t.sourcePorts ++ t.destinationPorts).find? fun r => r.high < r.low

/-- A term needs a name, an action unless it has verbatim text, and port ranges that hold a port. -/
def check (t : Term) : Except PolicyError Unit :=
  if t.name.isEmpty then .error .unnamedTerm
  else if t.actions.isEmpty && t.verbatims.isEmpty then .error (.badTerm t.name .noAction)
  else
    match t.badRange? with
    | some r => .error (.badTerm t.name (.badRange r))
    | none => .ok ()

end Term

namespace Policy

def check (p : Policy) : Except PolicyError Unit := p.filters.forM fun f => f.terms.forM Term.check

def ofSource (origin : String) (s : Option Source) : Except PolicyError Policy :=
  match s.bind Reader.policy.read with
  | none => .error (.parse origin)
  | some p => (p.check).map fun _ => p

def ofDocument (origin : String) (d : Document) : Except PolicyError Policy :=
  ofSource origin (some { format := .json, root := d })

def ofText (format : Format) (origin text : String) : Except PolicyError Policy :=
  match format with
  | .json => ofSource origin ((Json.read? text).map ({ format := .json, root := · }))
  | .yaml => ofSource origin (Yaml.read? text)

end Policy

end AccessList
