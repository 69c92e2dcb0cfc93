import ViewWiring.Toml.Text

namespace ViewWiring.Toml

def isDigitOf (base : Nat) (c : Char) : Bool :=
  match hexValue? c with
  | some n => n < base
  | none => false

/-- Single underscores may stand between digits. -/
def wellSpaced : List Char → Bool
  | [] => false
  | ['_'] => false
  | '_' :: _ => false
  | [_] => true
  | _ :: '_' :: rest => wellSpaced rest
  | _ :: rest => wellSpaced rest

/-- A number of at least one digit. -/
def digits (base : Nat) : Reader (List Char) := do
  let run ← readWhile fun c => isDigitOf base c || c == '_'
  if wellSpaced run then pure (run.filter (· != '_')) else failure

def ofDigits (base : Nat) (ds : List Char) : Nat :=
  ds.foldl (fun n d => base * n + (hexValue? d).getD 0) 0

/-- Whole numbers are those of 64 bits. -/
def inRange (n : Int) : Reader Int :=
  if -9223372036854775808 ≤ n ∧ n ≤ 9223372036854775807 then pure n else failure

def based (base : Nat) : Reader Int := do
  let ds ← digits base
  inRange (ofDigits base ds)

/-- Decimal digits without a leading zero. -/
def decimal : Reader Nat := do
  let ds ← digits 10
  if 1 < ds.length ∧ ds.head? = some '0' then failure else pure (ofDigits 10 ds)

/-- A whole number of 64 bits; only a decimal one may have a sign. -/
def integer : Reader Int := do
  match ← get with
  | '0' :: 'x' :: rest => set rest; based 16
  | '0' :: 'o' :: rest => set rest; based 8
  | '0' :: 'b' :: rest => set rest; based 2
  | '+' :: rest => set rest; inRange (← decimal)
  | '-' :: rest => set rest; inRange (-(← decimal))
  | _ => inRange (← decimal)

end ViewWiring.Toml
