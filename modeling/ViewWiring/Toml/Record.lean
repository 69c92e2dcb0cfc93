import ViewWiring.Toml.Value

namespace ViewWiring.Toml

/-- The place of one field in a record: filled, left out of a table, or beyond the end of a
list. -/
inductive Slot
  | given (v : Value)
  | absent
  | beyond

namespace Slot

variable {α : Type}

def required (read : Value → Option α) : Slot → Option α
  | given v => read v
  | absent | beyond => none

/-- A field that a table may leave out; a list has to fill it. -/
def optional (read : Value → Option α) : Slot → Option (Option α)
  | given v => (read v).map some
  | absent => some none
  | beyond => none

def withDefault (read : Value → Option α) (standard : α) : Slot → Option α
  | given v => read v
  | absent | beyond => some standard

end Slot

namespace Value

/-- A record is a table with no other fields than these, or a list of their values in order. -/
def record? (fields : List String) : Value → Option (String → Slot)
  | table entries =>
    if entries.all fun (name, _) => fields.contains name then
      some fun name => ((entries.lookup name).map Slot.given).getD .absent
    else none
  | array items => some fun name => ((items[fields.idxOf name]?).map Slot.given).getD .beyond
  | _ => none

def string? : Value → Option String
  | string text => some text
  | _ => none

def boolean? : Value → Option Bool
  | boolean flag => some flag
  | _ => none

/-- A whole number of 32 bits. -/
def id? : Value → Option Int
  | integer n => if -2147483648 ≤ n ∧ n ≤ 2147483647 then some n else none
  | _ => none

def count? : Value → Option Nat
  | integer (.ofNat n) => some n
  | _ => none

def list? {α : Type} (read : Value → Option α) : Value → Option (List α)
  | array items => items.mapM read
  | _ => none

/-- One of several words; it may also be the only name in a table, and then with nothing in it. -/
def word? : Value → Option String
  | string text => some text
  | table [(name, table [])] | table [(name, array [])] => some name
  | _ => none

end Value

end ViewWiring.Toml
