/-!
# Files

What the engine asks of the files around it.

* `FileError` — why a file could not be used; `FileError.message` the wording.
* `Files` — the operations on files, in a monad that may keep them anywhere.
-/

namespace FlowEngine.Store

/-- Why a file could not be used. -/
inductive FileError where
  | notFound
  | alreadyThere
  | notDirectory
  | isDirectory
  | other (message : String)
  deriving DecidableEq, Inhabited

/-- The wording of an error. -/
def FileError.message : FileError → String
  | notFound => "No such file or directory (os error 2)"
  | alreadyThere => "File exists (os error 17)"
  | notDirectory => "Not a directory (os error 20)"
  | isDirectory => "Is a directory (os error 21)"
  | other message => message

/-- The files around the engine: whether there is something at a path, the text of a file, replacing
that text, creating a file that is not there yet, and creating a directory with those above it. -/
structure Files (m : Type → Type) where
  isThere : String → m Bool
  read : String → m (Except FileError String)
  write : String → String → m (Except FileError Unit)
  touch : String → m (Except FileError Unit)
  makeDirectory : String → m (Except FileError Unit)

end FlowEngine.Store
