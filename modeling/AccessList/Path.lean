import AccessList.Net.CidrText
import AccessList.Text.Wrap

/-!
# File names

A path is a text with slashes. Its last part has a stem and, after the last point, an extension.
-/

namespace AccessList.Path

def pieces (path : String) : List String := (Text.splitOn '/' path.toList).map String.ofList

/-- The last part of a path that is not just a point; none where the path ends with two points or has no parts. -/
def fileName? (path : String) : Option String :=
  ((pieces path).filter fun p => !p.isEmpty && p != ".").getLast?.filter (· != "..")

/-- A file name before and after its last point; a point in front parts nothing. -/
def splitName (name : String) : String × Option String :=
  match Text.splitLast '.' name.toList with
  | none | some ([], _) => (name, none)
  | some (stem, extension) => (String.ofList stem, some (String.ofList extension))

def stem? (path : String) : Option String := (fileName? path).map (splitName · |>.1)

def extension? (path : String) : Option String := (fileName? path).bind (splitName · |>.2)

def isAbsolute (path : String) : Bool := path.toList.head? == some '/'

def maxName : Nat := 255

def maxLength : Nat := 4095

def hasEnd (path : String) : Bool := path.toList.contains '\x00'

/-- A path within a directory; an absolute path stays as it is. -/
def join (dir path : String) : String :=
  if isAbsolute path || dir.isEmpty then path
  else if dir.toList.getLast? = some '/' then dir ++ path
  else dir ++ "/" ++ path

def output (policy dir : String) : String := join dir ((stem? policy).getD policy ++ ".acl")

end AccessList.Path
