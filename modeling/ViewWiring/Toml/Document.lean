import ViewWiring.Toml.Number
import ViewWiring.Toml.Table

namespace ViewWiring.Toml

def isBareKey (c : Char) : Bool := c.isAlphanum || c == '_' || c == '-'

/-- One part of a key, bare or quoted. -/
def keyPart : Reader String := fun
  | '"' :: rest => lineText '"' true rest
  | '\'' :: rest => lineText '\'' false rest
  | cs =>
    let bare := cs.takeWhile isBareKey
    if bare.isEmpty then none else some (String.ofList bare, cs.dropWhile isBareKey)

/-- A key, split at its dots into the parts before the last and the last. -/
def key : Nat → Reader (List String × String)
  | 0 => failure
  | n + 1 => do
    skipWhile isBlank
    let part ← keyPart
    skipWhile isBlank
    if ← accept '.' then
      let (path, name) ← key n
      pure (part :: path, name)
    else pure ([], part)

/-- An inline table is complete once it is closed. -/
def inlineTable (entries : List ((List String × String) × Value)) : Option Value :=
  (entries.foldlM (fun t ((path, name), v) => Table.addEntry path name v t)
    (Table.empty .header)).map Table.toValue

mutual

/-- A value; the first argument bounds its depth and length together. -/
def value : Nat → Reader Value
  | 0 => failure
  | n + 1 => do
    match ← peek? with
    | some '"' | some '\'' => pure (.string (← text))
    | some '[' =>
      expect '['
      pure (.array (← items n))
    | some '\x7b' =>
      expect '\x7b'
      skipWhile isBlank
      if ← accept '\x7d' then pure (.table [])
      else
        let entries ← pairs n
        inlineTable entries
    | some 't' =>
      expectAll ['t', 'r', 'u', 'e']
      pure (.boolean true)
    | some 'f' =>
      expectAll ['f', 'a', 'l', 's', 'e']
      pure (.boolean false)
    | _ => pure (.integer (← integer))

/-- The items of an array up to its end; a comma may follow the last. -/
def items : Nat → Reader (List Value)
  | 0 => failure
  | n + 1 => do
    skipSpace
    if ← accept ']' then pure []
    else
      let item ← value n
      skipSpace
      if ← accept ',' then pure (item :: (← items n))
      else
        expect ']'
        pure [item]

/-- The entries of an inline table up to its end, all on one line. -/
def pairs : Nat → Reader (List ((List String × String) × Value))
  | 0 => failure
  | n + 1 => do
    let k ← key n
    expect '='
    skipWhile isBlank
    let v ← value n
    skipWhile isBlank
    if ← accept ',' then pure ((k, v) :: (← pairs n))
    else
      expect '\x7d'
      pure [(k, v)]

end

/-- A line that says something. -/
inductive Line
  | table (path : List String) (name : String)
  | arrayTable (path : List String) (name : String)
  | entry (path : List String) (name : String) (v : Value)

def header (n : Nat) : Reader Line := do
  expect '['
  if ← accept '[' then
    let (path, name) ← key n
    expectAll [']', ']']
    pure (.arrayTable path name)
  else
    let (path, name) ← key n
    expect ']'
    pure (.table path name)

def entry (n : Nat) : Reader Line := do
  let (path, name) ← key n
  expect '='
  skipWhile isBlank
  let v ← value n
  pure (.entry path name v)

/-- The lines of a document to its end, without empty ones and comments. -/
def lines : Nat → Reader (List Line)
  | 0 => failure
  | n + 1 => do
    skipWhile isBlank
    match ← peek? with
    | none => pure []
    | some '\n' | some '\r' | some '#' =>
      lineEnd
      lines n
    | some '[' =>
      let line ← header n
      lineEnd
      pure (line :: (← lines n))
    | some _ =>
      let line ← entry n
      lineEnd
      pure (line :: (← lines n))

/-- The table of a whole document so far, and the path of the table that entries go to. -/
structure Document where
  top : Table
  here : List String

namespace Document

def empty : Document := ⟨.empty .header, []⟩

def add (d : Document) : Line → Option Document
  | .table path name => (d.top.openTable path name).map fun top => ⟨top, path ++ [name]⟩
  | .arrayTable path name => (d.top.openArray path name).map fun top => ⟨top, path ++ [name]⟩
  | .entry path name v =>
    (d.top.modifyAt .implied (Table.addEntry path name v) d.here).map fun top => ⟨top, d.here⟩

end Document

/-- A byte order mark at the start is no part of a text. -/
def dropMark : List Char → List Char
  | '\uFEFF' :: cs => cs
  | cs => cs

/-- Reads a document. No step of the readers goes deeper than two for each character. -/
def parse (source : String) : Option Value := do
  let cs := dropMark source.toList
  let (lines, _) ← lines (2 * cs.length + 2) cs
  let document ← lines.foldlM Document.add Document.empty
  some document.top.toValue

/-- Reads a document of which `ofValue?` makes something. -/
def read {δ : Type} (ofValue? : Value → Option δ) (source : String) : Except String δ :=
  match (parse source).bind ofValue? with
  | some found => .ok found
  | none => .error "not a document of the expected form"

end ViewWiring.Toml
