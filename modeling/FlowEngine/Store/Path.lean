/-!
# Paths

A path is a text of names with slashes between them.

* `join` — a path below another one.
* `parent?`, `fileName?` — a path without its last name, and the last name.
* `stem?`, `extension?` — the two parts of the last name around its last dot.
-/

namespace FlowEngine.Store

/-- Drops slashes, and dots that stand for the same directory, from the end of a path. The path is
written backwards. -/
def trimBackwards : List Char → List Char
  | ['/'] => ['/']
  | '/' :: rest => trimBackwards rest
  | '.' :: '/' :: rest => trimBackwards ('/' :: rest)
  | cs => cs

/-- A path backwards, without slashes at its end. -/
def backwards (path : String) : List Char := trimBackwards path.toList.reverse

/-- A path below another one. A path from the root stays as it is. -/
def join (directory path : String) : String :=
  if path.startsWith "/" || directory.isEmpty then path
  else if directory.endsWith "/" then directory ++ path
  else directory ++ "/" ++ path

/-- A path without its last name. The empty path and the root have no name. -/
def parent? (path : String) : Option String :=
  match backwards path with
  | [] | ['/'] => none
  | cs => some (String.ofList (trimBackwards (cs.dropWhile (· ≠ '/'))).reverse)

/-- The last name of a path, unless it stands for a directory on the way. -/
def fileName? (path : String) : Option String :=
  let name := String.ofList ((backwards path).takeWhile (· ≠ '/')).reverse
  if name.isEmpty || name == "." || name == ".." then none else some name

/-- A name before and after its last dot. A dot at the start of a name does not count. -/
def splitName (name : String) : String × Option String :=
  match name.toList.reverse.span (· ≠ '.') with
  | (ending, '.' :: start) =>
    if start.isEmpty then (name, none)
    else (String.ofList start.reverse, some (String.ofList ending.reverse))
  | _ => (name, none)

/-- The last name of a path before its last dot. -/
def stem? (path : String) : Option String := (fileName? path).map fun name => (splitName name).1

/-- What follows the last dot in the last name of a path. -/
def extension? (path : String) : Option String :=
  (fileName? path).bind fun name => (splitName name).2

end FlowEngine.Store
