import Flowgraph.Text.Quoted

/-!
**Files and paths.**

Paths are resolved the usual way: a leading `~` stands for the home directory, a relative path
is taken from the working directory, and `.`, `..` and repeated slashes are folded away. A
resolved path is the list of its components from the root.

A file system answers four requests, as an operating system does: what stands at a path, the
bytes of a file, making one directory, and writing a text file. Its failures carry an error
number and the path, and read `[Errno 21] Is a directory: '/tmp/x'`.

`Workspace` is a file system held as a value: the directories and files below the root.
-/

namespace Flowgraph.Cli

/-- The text of a resolved path. -/
def pathText (path : List String) : String := "/" ++ "/".intercalate path

/-- Folds the components of a path onto a base: `.` and empty components are dropped, `..`
goes up (never above the root). -/
def foldComponents (base : List String) (components : List String) : List String :=
  components.foldl (fun acc part =>
    if part = "" || part = "." then acc
    else if part = ".." then acc.dropLast
    else acc ++ [part]) base

/-- The home directory that a text such as the `HOME` variable names, seen from `cwd`: an empty
text names the root, a relative text lies under `cwd`, and a text that still starts with `~`
names none. -/
def homeDirectory (cwd : List String) (text : String) : Option (List String) :=
  if text.startsWith "~" then none
  else if text.startsWith "/" || text.isEmpty then some (foldComponents [] (text.splitOn "/"))
  else some (foldComponents cwd (text.splitOn "/"))

/-- Why a path given as text cannot be resolved. -/
inductive PathProblem where
  /-- The path starts at the home directory of a user who is not known. -/
  | unknownHome
  /-- The path holds a NUL character. -/
  | nulCharacter
  deriving Repr, DecidableEq

/-- The text of a path problem. -/
def PathProblem.message : PathProblem → String
  | .unknownHome => "Could not determine home directory."
  | .nulCharacter => "embedded null byte"

/-- Resolves a path given as text, from the working directory `cwd`. A relative path whose
first component is `~` or `~name` starts at the home directory that `homeOf` gives for the
current user (`""`) or for `name`. The user's name is looked up first, then the whole path is
checked for a NUL character. -/
def resolvePath (cwd : List String) (homeOf : String → Option (List String)) (raw : String) :
    Except PathProblem (List String) := do
  let path ← if raw.startsWith "/" then pure (foldComponents [] (raw.splitOn "/"))
    else
      match (raw.splitOn "/").filter (fun part => part ≠ "" && part ≠ ".") with
      | first :: rest =>
        if first.startsWith "~" then
          let name := (first.drop 1).toString
          if name.contains '\x00' then throw .nulCharacter
          match homeOf name with
          | some home => pure (foldComponents home rest)
          | none => throw .unknownHome
        else pure (foldComponents cwd (first :: rest))
      | [] => pure cwd
  if raw.contains '\x00' then throw .nulCharacter
  return path

/-- What stands at a path. -/
inductive NodeKind where
  | missing
  | file
  | directory
  deriving Repr, DecidableEq

/-- The failures of file operations. -/
inductive OsFailure where
  | noSuchFile
  | fileExists
  | notADirectory
  | isADirectory
  | permissionDenied
  deriving Repr, DecidableEq

/-- The error number and text of a failure. -/
def OsFailure.describe : OsFailure → Nat × String
  | .noSuchFile => (2, "No such file or directory")
  | .fileExists => (17, "File exists")
  | .notADirectory => (20, "Not a directory")
  | .isADirectory => (21, "Is a directory")
  | .permissionDenied => (13, "Permission denied")

/-- A failed file operation on a path. -/
structure OsError where
  failure : OsFailure
  path : List String
  deriving Repr, DecidableEq

/-- The text of a failed file operation: `[Errno N] TEXT: 'PATH'`. -/
def OsError.message (e : OsError) : String :=
  let (errno, text) := e.failure.describe
  "[Errno " ++ toString errno ++ "] " ++ text ++ ": " ++ Text.quoted (pathText e.path)

/-- The requests a file system answers. -/
class FileSystem (m : Type → Type) where
  /-- What stands at a path; a path through a file leads nowhere. -/
  kindAt : List String → m NodeKind
  /-- The bytes of a file. -/
  readBytes : List String → m (Except OsError (List UInt8))
  /-- Makes one directory, whose parent must exist. -/
  makeDir : List String → m (Except OsError Unit)
  /-- Writes a text file, replacing any file of that name. -/
  writeText : List String → String → m (Except OsError Unit)

/-- Makes a directory and any missing parents; a directory that exists already is fine. -/
def makeDirs {m : Type → Type} [Monad m] [FileSystem m] (path : List String) :
    m (Except OsError Unit) := do
  match ← FileSystem.makeDir path with
  | .ok () => return .ok ()
  | .error e =>
    if e.failure = .noSuchFile then
      if _atRoot : path = [] then return .error e
      else
        match ← makeDirs path.dropLast with
        | .error e' => return .error e'
        | .ok () =>
          match ← FileSystem.makeDir path with
          | .ok () => return .ok ()
          | .error e2 =>
            if e2.failure = .noSuchFile then return .error e2
            else if (← FileSystem.kindAt path) = .directory then return .ok ()
            else return .error e2
    else if (← FileSystem.kindAt path) = .directory then return .ok ()
    else return .error e
termination_by path.length
decreasing_by
  have : 0 < path.length := List.length_pos_iff.mpr _atRoot
  simp only [List.length_dropLast]
  omega

/-- A node of a workspace. -/
inductive Node where
  | directory
  | file (bytes : List UInt8)
  deriving Repr, DecidableEq

/-- A file system held as a value: every directory and file by its path. -/
structure Workspace where
  nodes : List (List String × Node)
  deriving Repr

namespace Workspace

/-- The node at a path. -/
def node? (w : Workspace) (path : List String) : Option Node := w.nodes.lookup path

/-- What stands at a path; a path through a file or a missing directory leads nowhere. -/
def kind (w : Workspace) (path : List String) : NodeKind :=
  match w.node? path with
  | some .directory => .directory
  | some (.file _) => .file
  | none => .missing

/-- The first failure met on the way to a path: a missing directory or a file on the way. -/
def blocked (w : Workspace) (path : List String) : Option OsFailure :=
  let ancestors := (List.range path.length).map fun k => path.take k
  ancestors.findSome? fun dir =>
    match w.kind dir with
    | .directory => none
    | .file => some .notADirectory
    | .missing => some .noSuchFile

/-- Sets the node at a path. -/
def put (w : Workspace) (path : List String) (n : Node) : Workspace :=
  ⟨(w.nodes.filter (·.1 != path)) ++ [(path, n)]⟩

/-- The bytes of a file. -/
def read (w : Workspace) (path : List String) : Except OsError (List UInt8) :=
  match w.blocked path with
  | some failure => .error ⟨failure, path⟩
  | none =>
    match w.node? path with
    | some (.file bytes) => .ok bytes
    | some .directory => .error ⟨.isADirectory, path⟩
    | none => .error ⟨.noSuchFile, path⟩

/-- Makes one directory. -/
def mkdir (w : Workspace) (path : List String) : Except OsError Workspace :=
  match w.blocked path with
  | some failure => .error ⟨failure, path⟩
  | none =>
    match w.node? path with
    | some _ => .error ⟨.fileExists, path⟩
    | none => .ok (w.put path .directory)

/-- Writes a text file as UTF-8. -/
def write (w : Workspace) (path : List String) (text : String) : Except OsError Workspace :=
  match w.blocked path with
  | some failure => .error ⟨failure, path⟩
  | none =>
    match w.node? path with
    | some .directory => .error ⟨.isADirectory, path⟩
    | _ => .ok (w.put path (.file text.toUTF8.toList))

/-- The files below a directory, with their paths relative to it, sorted by path. -/
def filesUnder (w : Workspace) (dir : List String) : List (String × List UInt8) :=
  let found := w.nodes.filterMap fun (path, n) =>
    match n with
    | .file bytes =>
      if dir.isPrefixOf path && path.length > dir.length then
        some ("/".intercalate (path.drop dir.length), bytes)
      else none
    | .directory => none
  found.mergeSort fun a b => decide (a.1 ≤ b.1)

end Workspace

instance : FileSystem (StateM Workspace) where
  kindAt path := return (← get).kind path
  readBytes path := return (← get).read path
  makeDir path := do
    match (← get).mkdir path with
    | .ok w => set w; return .ok ()
    | .error e => return .error e
  writeText path text := do
    match (← get).write path text with
    | .ok w => set w; return .ok ()
    | .error e => return .error e

end Flowgraph.Cli
