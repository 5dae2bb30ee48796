import AccessList.Path
import AccessList.Policy.Load

/-!
# Files

The generator reads, writes and prints through `FileAccess`, in whatever monad there is for it. A `FileTree` is the
plain kind: files and directories below one working directory. Outside it are the directories above and what every
system has.
-/

namespace AccessList

structure FileAccess (m : Type → Type) where
  read : String → m (Except IoError String)
  write : String → String → m (Except IoError Unit)
  print : String → m Unit

inductive FileEntry
  | directory
  /-- A file, with its text if it has one. -/
  | file (text : Option String)
deriving DecidableEq

/-- Entries by the names on the way to them, from the working directory or, after a name that is a slash, from the
root. A name on the way to an entry is a directory. -/
structure FileTree where
  entries : List (List String × FileEntry) := []

namespace FileTree

def root : List String := ["/"]

def isAbove (names : List String) : Bool := names.all (· == "..") || names == root

def parent (names : List String) : List String :=
  if names == root then root else if isAbove names then names ++ [".."] else names.dropLast

def systemEntries : List (List String × FileEntry) :=
  (["/", "dev", "null"], .file (some "")) ::
    ["bin", "etc", "home", "lib", "opt", "proc", "root", "run", "sbin", "srv", "sys", "tmp", "usr", "var"].map
      fun name => (["/", name], .directory)

def entry? (t : FileTree) (names : List String) : Option FileEntry :=
  if isAbove names then some .directory
  else
    let entries := t.entries ++ systemEntries
    match entries.lookup names with
    | some e => some e
    | none => if entries.any fun (ns, _) => names.isPrefixOf ns then some .directory else none

/-- Follows the pieces of a path from a directory. All but the last have to lead to directories. -/
def follow (t : FileTree) (dir : List String) : List String → Except IoError (List String)
  | [] => .ok dir
  | piece :: rest =>
    if piece.isEmpty || piece = "." then t.follow dir rest
    else if piece = ".." then t.follow (parent dir) rest
    else if Path.maxName < piece.utf8ByteSize then .error .nameTooLong
    else if rest.isEmpty then .ok (dir ++ [piece])
    else
      match t.entry? (dir ++ [piece]) with
      | some .directory => t.follow (dir ++ [piece]) rest
      | some (.file _) => .error .notDirectory
      | none => .error .notFound

def find (t : FileTree) (path : String) : Except IoError (List String) :=
  if Path.hasEnd path then .error .endInName
  else if path.isEmpty then .error .notFound
  else if Path.maxLength < path.utf8ByteSize then .error .nameTooLong
  else t.follow (if Path.isAbsolute path then root else []) (Path.pieces path)

def read (t : FileTree) (path : String) : Except IoError String := do
  match t.entry? (← t.find path) with
  | none => throw .notFound
  | some .directory => throw .isDirectory
  | some (.file none) => throw .notUtf8
  | some (.file (some text)) => pure text

def put (t : FileTree) (names : List String) (text : String) : FileTree :=
  if t.entries.any (·.1 == names) then
    ⟨t.entries.map fun (ns, e) => if ns = names then (ns, .file (some text)) else (ns, e)⟩
  else ⟨t.entries ++ [(names, .file (some text))]⟩

def write (t : FileTree) (path text : String) : Except IoError FileTree := do
  let names ← t.find path
  match t.entry? names with
  | some .directory => throw .isDirectory
  | _ => pure (t.put names text)

end FileTree

structure Workspace where
  tree : FileTree
  printed : String := ""

def Workspace.access : FileAccess (StateM Workspace) where
  read path := do pure ((← get).tree.read path)
  write path text := do
    let w ← get
    match w.tree.write path text with
    | .error e => pure (.error e)
    | .ok tree =>
      set { w with tree }
      pure (.ok ())
  print text := modify fun w => { w with printed := w.printed ++ text }

end AccessList
