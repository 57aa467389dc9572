import FlowEngine.Store.Files

/-!
# Files in memory

* `Tree` — files and directories by the names on their paths.
* `Tree.read`, `Tree.write`, `Tree.touch`, `Tree.makeDirectory` — the operations on files.
* `Tree.files` — these operations in a monad whose state has a tree.
-/

namespace FlowEngine.Store

/-- Files by the names on their paths, and directories that are there although they may be empty. -/
structure Tree where
  texts : List (List String × String)
  directories : List (List String)
  deriving DecidableEq, Inhabited

/-- The names on a path from the directory that paths start from. A path from the root starts with a
slash. -/
def pathNames (path : String) : List String :=
  let root := if path.startsWith "/" then ["/"] else []
  (path.splitOn "/").foldl (fun names name =>
    if name = "" ∨ name = "." then names
    else if name = ".." then names.dropLast
    else names ++ [name]) root

namespace Tree

/-- A tree of files by their paths. -/
def ofFiles (files : List (String × String)) : Tree :=
  ⟨files.map fun f => (pathNames f.1, f.2), []⟩

/-- Whether there is a file. -/
def isFile (t : Tree) (names : List String) : Bool := t.texts.any fun f => f.1 == names

/-- Whether there is a directory: one that was created, or one that a file is in. -/
def isDirectory (t : Tree) (names : List String) : Bool :=
  names.isEmpty || t.directories.contains names ||
    t.texts.any fun f => names.isPrefixOf f.1 && f.1 != names

/-- Whether a file stands where a directory on the way should be. -/
def isBlocked (t : Tree) (names : List String) : Bool :=
  t.texts.any fun f => f.1.isPrefixOf names && f.1 != names

/-- Whether there is anything. -/
def isThere (t : Tree) (path : String) : Bool :=
  t.isFile (pathNames path) || t.isDirectory (pathNames path)

/-- The text of a file. -/
def read (t : Tree) (path : String) : Except FileError String :=
  let names := pathNames path
  if t.isBlocked names then .error .notDirectory
  else if t.isDirectory names then .error .isDirectory
  else
    match t.texts.lookup names with
    | none => .error .notFound
    | some text => if path.endsWith "/" then .error .notDirectory else .ok text

/-- Replaces the text of a file, or creates it. -/
def write (t : Tree) (path text : String) : Except FileError Tree :=
  let names := pathNames path
  if t.isBlocked names then .error .notDirectory
  else if t.isDirectory names || path.endsWith "/" then .error .isDirectory
  else if !t.isDirectory names.dropLast then .error .notFound
  else .ok { t with texts := t.texts.filter (fun f => f.1 != names) ++ [(names, text)] }

/-- Creates a file that is not there yet. -/
def touch (t : Tree) (path : String) : Except FileError Tree :=
  match t.read path with
  | .ok _ => .ok t
  | .error _ => t.write path ""

/-- Creates a directory and those above it. -/
def makeDirectory (t : Tree) (path : String) : Except FileError Tree :=
  let names := pathNames path
  if t.isBlocked names then .error .notDirectory
  else if t.isFile names then .error .alreadyThere
  else .ok { t with directories := t.directories ++ (List.range (names.length + 1)).map names.take }

/-- Changes the tree in a state. -/
def modify {m : Type → Type} [Monad m] (get : m Tree) (set : Tree → m Unit)
    (change : Tree → Except FileError Tree) : m (Except FileError Unit) := do
  match change (← get) with
  | .ok t =>
    set t
    pure (.ok ())
  | .error e => pure (.error e)

/-- The operations on files in a monad whose state has a tree. -/
def files {m : Type → Type} [Monad m] (get : m Tree) (set : Tree → m Unit) : Files m where
  isThere path := do pure ((← get).isThere path)
  read path := do pure ((← get).read path)
  write path text := modify get set fun t => t.write path text
  touch path := modify get set fun t => t.touch path
  makeDirectory path := modify get set fun t => t.makeDirectory path

end Tree

end FlowEngine.Store
