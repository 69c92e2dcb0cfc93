namespace ViewWiring.Toml

/-- Reads from the front of a text and leaves the rest, or fails. -/
abbrev Reader := StateT (List Char) Option

def peek? : Reader (Option Char) := fun cs => some (cs.head?, cs)

def skipWhile (p : Char → Bool) : Reader Unit := fun cs => some ((), cs.dropWhile p)

def readWhile (p : Char → Bool) : Reader (List Char) := fun cs =>
  some (cs.takeWhile p, cs.dropWhile p)

/-- Passes over `c` if it comes next, and says whether it did. -/
def accept (c : Char) : Reader Bool := fun
  | [] => some (false, [])
  | d :: cs => if d = c then some (true, cs) else some (false, d :: cs)

def expect (c : Char) : Reader Unit := do
  if ← accept c then pure () else failure

def expectAll : List Char → Reader Unit
  | [] => pure ()
  | c :: cs => do
    expect c
    expectAll cs

def isBlank (c : Char) : Bool := c == ' ' || c == '\t'

/-- Everything but line ends and other control characters. -/
def isPlain (c : Char) : Bool := c == '\t' || (0x20 ≤ c.toNat && c.toNat != 0x7f)

/-- Ends a line, after blanks and a comment. -/
def lineEnd : Reader Unit := do
  skipWhile isBlank
  if ← accept '#' then skipWhile isPlain
  match ← get with
  | [] => pure ()
  | '\n' :: rest => set rest
  | '\r' :: '\n' :: rest => set rest
  | _ => failure

/-- Drops blanks, line ends and comments; the flag says whether a comment has begun. -/
def dropSpace : Bool → List Char → Option (List Char)
  | _, [] => some []
  | _, '\n' :: rest => dropSpace false rest
  | _, '\r' :: '\n' :: rest => dropSpace false rest
  | true, c :: rest => if isPlain c then dropSpace true rest else none
  | false, c :: rest =>
    if isBlank c then dropSpace false rest
    else if c = '#' then dropSpace true rest
    else some (c :: rest)

def skipSpace : Reader Unit := fun cs => (dropSpace false cs).map fun rest => ((), rest)

end ViewWiring.Toml
