import FlowEngine.Json.Basic

/-!
# Tables of TOML

The statements of a file build up a tree of tables. A table may be opened once by a header and
filled by the assignments after it; tables on the way to it come into being by themselves.

* `Node` — what stands under a key.
* `Statement` — one line of a file.
* `Draft.take?` — what a statement does to the tree; it fails if something would be defined twice.
* `assignAll?` — the table of a list of assignments.
* `Node.toJson` — the tree as a document.
-/

namespace FlowEngine.Toml

/-- How a table came into being: by a header of its own, by a header of one of its tables, or by an
assignment to a key of several parts. -/
inductive Origin where
  | header
  | parent
  | dotted
  deriving DecidableEq

/-- What stands under a key: a value, a table, or a list of tables. -/
inductive Node where
  | value (json : Json)
  | table (origin : Origin) (entries : List (String × Node))
  | tables (elements : List (List (String × Node)))

/-- The entries of a table. -/
abbrev Entries := List (String × Node)

mutual

/-- A node as a document. -/
def Node.toJson : Node → Json
  | .value json => json
  | .table _ entries => .obj (membersOf entries)
  | .tables elements => .arr (elementsOf elements)

/-- The members of a table. -/
def membersOf : List (String × Node) → List (String × Json)
  | [] => []
  | (name, node) :: rest => (name, node.toJson) :: membersOf rest

/-- The elements of a list of tables. -/
def elementsOf : List (List (String × Node)) → List Json
  | [] => []
  | entries :: rest => .obj (membersOf entries) :: elementsOf rest

end

namespace Entries

/-- What stands under a name. -/
def get? (entries : Entries) (name : String) : Option Node := entries.lookup name

/-- Puts a node under a name, in place of what was there. -/
def put (entries : Entries) (name : String) (node : Node) : Entries :=
  entries.filter (fun e => e.1 != name) ++ [(name, node)]

end Entries

/-- A table, with how it came into being. -/
abbrev Table := Origin × Entries

/-- Changes the table at the end of a path; tables that are missing on the way come into being. On
the way from an assignment there must be no table with a header of its own. -/
def descend? (made : Origin) (change : Table → Option Table) : List String → Table → Option Table
  | [], table => change table
  | name :: path, (origin, entries) =>
    match entries.get? name with
    | none => do
      let (o, es) ← descend? made change path (made, [])
      some (origin, entries.put name (.table o es))
    | some (.table o es) =>
      if made = .dotted ∧ o = .header then none
      else do
        let (o, es) ← descend? made change path (o, es)
        some (origin, entries.put name (.table o es))
    | some (.tables elements) => do
      let (_, last) ← descend? made change path (.header, ← elements.getLast?)
      some (origin, entries.put name (.tables (elements.dropLast ++ [last])))
    | some (.value _) => none

/-! ## Assignments -/

/-- Puts a value under a name that is free. -/
def define? (name : String) (json : Json) : Table → Option Table
  | (origin, entries) =>
    match entries.get? name with
    | none => some (origin, entries.put name (.value json))
    | some _ => none

/-- An assignment to a key. A key of several parts leads to a table that only such keys fill. -/
def assign? (key : List String) (json : Json) (table : Table) : Option Table := do
  let name ← key.getLast?
  let path := key.dropLast
  descend? .dotted (fun (origin, entries) =>
    if path.isEmpty ≠ (origin = .dotted) then define? name json (origin, entries) else none)
    path table

/-- The table of a list of assignments. -/
def assignAll? (assignments : List (List String × Json)) : Option Entries :=
  (assignments.foldlM (fun table a => assign? a.1 a.2 table) ((.header, []) : Table)).map Prod.snd

/-! ## Headers -/

/-- Opens a table by its header. -/
def openTable? (name : String) : Table → Option Table
  | (origin, entries) =>
    match entries.get? name with
    | none => some (origin, entries.put name (.table .header []))
    | some (.table .parent es) => some (origin, entries.put name (.table .header es))
    | some _ => none

/-- Opens another table of a list by its header. -/
def openElement? (name : String) : Table → Option Table
  | (origin, entries) =>
    match entries.get? name with
    | none => some (origin, entries.put name (.tables [[]]))
    | some (.tables elements) => some (origin, entries.put name (.tables (elements ++ [[]])))
    | some _ => none

/-! ## Statements -/

/-- A line of a file: an assignment, the header of a table, or the header of a table in a list. -/
inductive Statement where
  | assign (key : List String) (json : Json)
  | table (key : List String)
  | element (key : List String)

/-- The tables of the lines read so far, and the key of the table that assignments go to. -/
structure Draft where
  entries : Entries
  current : List String

/-- What a statement does to the tables. -/
def Draft.take? (d : Draft) : Statement → Option Draft
  | .assign key json => do
    let (_, entries) ← descend? .parent (assign? key json) d.current (.header, d.entries)
    some { d with entries := entries }
  | .table key => opened openTable? key
  | .element key => opened openElement? key
where
  /-- The tables after a header. -/
  opened (step : String → Table → Option Table) (key : List String) : Option Draft := do
    let name ← key.getLast?
    let (_, entries) ← descend? .parent (step name) key.dropLast (.header, d.entries)
    some ⟨entries, key⟩

end FlowEngine.Toml
