import ViewWiring.TypeName

namespace ViewWiring

/-- How a walk from base type to base type ends. -/
inductive Ascent
  | reached (depth : Nat)
  | exhausted (chain : List TypeName)
  | cycle (name : TypeName)
  | tooDeep (limit : Nat)
  deriving DecidableEq

namespace Ascent

def isReached : Ascent → Bool
  | reached _ => true
  | _ => false

/-- Why the target was not met. -/
def note : Ascent → Option String
  | reached _ => none
  | exhausted chain => some ("base-type chain: " ++ " -> ".intercalate (chain.map TypeName.text))
  | cycle name => some ("base-type chain loops back to " ++ name.text)
  | tooDeep limit => some ("base-type chain is deeper than " ++ toString limit ++ " levels")

theorem note_eq_none_iff (a : Ascent) : a.note = none ↔ a.isReached = true := by
  cases a <;> simp [note, isReached]

end Ascent

variable (parent : TypeName → Option TypeName)

/-- Goes on from `current`, above the types in `below`, for at most `steps` more steps. -/
def ascendFrom (target : TypeName) : Nat → List TypeName → TypeName → Ascent
  | steps, below, current =>
    if current = target then .reached below.length
    else
      match steps with
      | 0 => .tooDeep below.length
      | steps + 1 =>
        if current ∈ below then .cycle current
        else
          match parent current with
          | none => .exhausted (below ++ [current])
          | some next => ascendFrom target steps (below ++ [current]) next

/-- Walks upward from `start` until `target` is met. A type reaches itself in no step. -/
def ascend (start target : TypeName) (maxDepth : Nat) : Ascent :=
  ascendFrom parent target maxDepth [] start

/-- The types above `current` that are not in `seen`, for at most `steps` steps. -/
def ancestorsFrom : Nat → List TypeName → TypeName → List TypeName
  | 0, _, _ => []
  | steps + 1, seen, current =>
    match parent current with
    | none => []
    | some next =>
      if next ∈ seen then [] else next :: ancestorsFrom steps (next :: seen) next

/-- The types above `start`, nearest first, up to the end of the chain, a type seen before, or
`maxDepth` of them. -/
def ancestors (start : TypeName) (maxDepth : Nat) : List TypeName :=
  ancestorsFrom parent maxDepth [start] start

end ViewWiring
