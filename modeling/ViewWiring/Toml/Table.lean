import ViewWiring.Toml.Value

namespace ViewWiring.Toml

/-- How a table came to be: by its own header, as a step on the way of a longer header, or as a
step of a dotted key. -/
inductive Origin
  | header
  | implied
  | dotted
  deriving DecidableEq

mutual

/-- What a name of an unfinished table stands for; the tables of an array are added one by one, and
the current one is the last. -/
inductive Node
  | value (v : Value)
  | table (t : Table)
  | tables (current : Table) (earlier : List Table)

/-- A table that later lines can still add to. -/
structure Table where
  origin : Origin
  entries : List (String × Node)

end

namespace Table

def empty (origin : Origin) : Table := ⟨origin, []⟩

def get? (t : Table) (name : String) : Option Node := t.entries.lookup name

def set (t : Table) (name : String) (node : Node) : Table :=
  if (t.get? name).isSome then
    { t with entries := t.entries.map fun (n, old) => if n = name then (n, node) else (n, old) }
  else { t with entries := t.entries ++ [(name, node)] }

/-- Changes the table at the end of a path, where missing tables get the origin `made`. A dotted
key does not lead into a table that has a header. -/
def modifyAt (made : Origin) (change : Table → Option Table) : List String → Table → Option Table
  | [], t => change t
  | name :: path, t =>
    match t.get? name with
    | none => (modifyAt made change path (empty made)).map fun child => t.set name (.table child)
    | some (.value _) => none
    | some (.table child) =>
      if made = .dotted ∧ child.origin = .header then none
      else (modifyAt made change path child).map fun child => t.set name (.table child)
    | some (.tables current earlier) =>
      (modifyAt made change path current).map fun current => t.set name (.tables current earlier)

/-- Gives a name in the table its value, once. -/
def define (name : String) (v : Value) (t : Table) : Option Table :=
  if (t.get? name).isSome then none else some (t.set name (.value v))

/-- Adds an entry under a dotted key, all parts of which but the last are in `path`; tables that
dotted keys add to are made by dotted keys alone. -/
def addEntry (path : List String) (name : String) (v : Value) : Table → Option Table :=
  modifyAt .dotted
    (fun t => if (t.origin == .dotted) == path.isEmpty then none else t.define name v) path

/-- Opens a table by its header; one that longer headers implied may still be opened, once. -/
def openTable (path : List String) (name : String) : Table → Option Table :=
  modifyAt .implied
    (fun t =>
      match t.get? name with
      | none => some (t.set name (.table (empty .header)))
      | some (.table child) =>
        if child.origin = .implied then some (t.set name (.table { child with origin := .header }))
        else none
      | some _ => none) path

/-- Opens one more table of an array by its header. -/
def openArray (path : List String) (name : String) : Table → Option Table :=
  modifyAt .implied
    (fun t =>
      match t.get? name with
      | none => some (t.set name (.tables (empty .header) []))
      | some (.tables current earlier) =>
        some (t.set name (.tables (empty .header) (current :: earlier)))
      | some _ => none) path

end Table

mutual

def Node.toValue : Node → Value
  | .value v => v
  | .table t => t.toValue
  | .tables current earlier => .array (Table.toValues earlier [current.toValue])

def Table.toValue : Table → Value
  | ⟨_, entries⟩ => .table (Table.toEntries entries)

/-- The values of tables listed from the last to the first, before those in `later`. -/
def Table.toValues : List Table → List Value → List Value
  | [], later => later
  | t :: ts, later => Table.toValues ts (t.toValue :: later)

def Table.toEntries : List (String × Node) → List (String × Value)
  | [] => []
  | (name, node) :: rest => (name, node.toValue) :: Table.toEntries rest

end

end ViewWiring.Toml
