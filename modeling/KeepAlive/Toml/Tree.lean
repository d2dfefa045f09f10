import KeepAlive.Json.Value

/-!
# Tables of a TOML document

A document is built statement by statement into a tree of tables.  A table is defined once: by its
header or by dotted keys, and a key has one value.  Tables that are only passed through on the way to
another one may still get a header of their own.
-/

namespace KeepAlive.Toml

/-- How a table came to be. -/
inductive Origin
  /-- By a header of its own, or as the document itself. -/
  | header
  /-- On the way to a table with a header. -/
  | passage
  /-- By dotted keys. -/
  | dotted
  deriving DecidableEq, Repr

/-- What a key stands for. -/
inductive Item
  | value (content : Json)
  | table (origin : Origin) (entries : List (String × Item))
  /-- Tables under one name, the latest apart. -/
  | tables (earlier : List Item) (latest : Item)
  deriving Inhabited

/-- Entries with the one under `key` replaced, or added at the end. -/
def replaceEntry (key : String) (item : Item) (entries : List (String × Item)) :
    List (String × Item) :=
  if entries.any (·.1 = key) then
    entries.map fun entry => if entry.1 = key then (key, item) else entry
  else entries ++ [(key, item)]

/-- Changes the table at the end of a path.  Tables that are missing on the way are made, with the
given origin; values and, for dotted keys, tables with a header are no way. -/
def alterAt (origin : Origin) (change : Item → Option Item) : List String → Item → Option Item
  | [], item => change item
  | key :: path, .table own entries =>
    match entries.lookup key with
    | none => do
      let changed ← alterAt origin change path (.table origin [])
      return .table own (replaceEntry key changed entries)
    | some (.value _) => none
    | some (.tables earlier latest) => do
      let changed ← alterAt origin change path latest
      return .table own (replaceEntry key (.tables earlier changed) entries)
    | some (.table inner below) => do
      if origin = .dotted && inner = .header then none
      let changed ← alterAt origin change path (.table inner below)
      return .table own (replaceEntry key changed entries)
  | _ :: _, _ => none

/-- Adds a value under a new key.  A key without a path needs a table that dotted keys did not make,
and a key with a path one that they did. -/
def addValue (hasPath : Bool) (key : String) (content : Json) : Item → Option Item
  | .table origin entries =>
    if (origin = .dotted) = hasPath && !entries.any (·.1 = key) then
      some (.table origin (entries ++ [(key, .value content)]))
    else none
  | _ => none

/-- Opens a table under its header. -/
def openTable (key : String) : Item → Option Item
  | .table origin entries =>
    match entries.lookup key with
    | none => some (.table origin (entries ++ [(key, .table .header [])]))
    | some (.table .passage below) =>
      some (.table origin (replaceEntry key (.table .header below) entries))
    | some _ => none
  | _ => none

/-- Opens one more of the tables under their common header. -/
def openNext (key : String) : Item → Option Item
  | .table origin entries =>
    match entries.lookup key with
    | none => some (.table origin (entries ++ [(key, .tables [] (.table .header []))]))
    | some (.tables earlier latest) =>
      some (.table origin
        (replaceEntry key (.tables (earlier ++ [latest]) (.table .header [])) entries))
    | some _ => none
  | _ => none

/-- A dotted key, without its last part, and that part. -/
structure Key where
  path : List String
  last : String
  deriving DecidableEq, Repr

/-- One statement of a document. -/
inductive Statement
  | assign (key : Key) (content : Json)
  | header (key : Key)
  | nextHeader (key : Key)

/-- A document under construction: its tree and the path of the table that is open. -/
structure Draft where
  root : Item := .table .header []
  current : List String := []

/-- Sets a key of a table, which may be a dotted one. -/
def assign (key : Key) (content : Json) (table : Item) : Option Item :=
  alterAt .dotted (addValue (!key.path.isEmpty) key.last content) key.path table

/-- Takes one more statement in. -/
def Draft.add (draft : Draft) : Statement → Option Draft
  | .assign key content => do
    let root ← alterAt .passage (assign key content) draft.current draft.root
    return { draft with root }
  | .header key => do
    let root ← alterAt .passage (openTable key.last) key.path draft.root
    return ⟨root, key.path ++ [key.last]⟩
  | .nextHeader key => do
    let root ← alterAt .passage (openNext key.last) key.path draft.root
    return ⟨root, key.path ++ [key.last]⟩

mutual

/-- The value that an item describes. -/
def Item.toJson : Item → Json
  | .value content => content
  | .table _ entries => .object (entriesToJson entries)
  | .tables earlier latest => .array (itemsToJson earlier ++ [latest.toJson])

/-- The members that entries describe. -/
def entriesToJson : List (String × Item) → List (String × Json)
  | [] => []
  | (key, item) :: rest => (key, item.toJson) :: entriesToJson rest

/-- The values that items describe. -/
def itemsToJson : List Item → List Json
  | [] => []
  | item :: rest => item.toJson :: itemsToJson rest

end

/-- The value that a list of statements describes, if no two are at odds. -/
def document? (statements : List Statement) : Option Json :=
  (statements.foldlM Draft.add {}).map fun (draft : Draft) => draft.root.toJson

/-- The inline table of the given assignments, if no two are at odds. -/
def inlineTable? (assignments : List (Key × Json)) : Option Json :=
  (assignments.foldlM (fun table (key, content) => assign key content table)
    (.table .header [])).map Item.toJson

end KeepAlive.Toml
