import ViewWiring.Toml.Reader

namespace ViewWiring.Toml

def hexValue? (c : Char) : Option Nat :=
  if c.isDigit then some (c.toNat - '0'.toNat)
  else if 'a' ≤ c ∧ c ≤ 'f' then some (c.toNat - 'a'.toNat + 10)
  else if 'A' ≤ c ∧ c ≤ 'F' then some (c.toNat - 'A'.toNat + 10)
  else none

/-- The character of a code point in hexadecimal; surrogates have none. -/
def charOfHex? (digits : List Char) : Option Char := do
  let values ← digits.mapM hexValue?
  let code := values.foldl (fun n d => 16 * n + d) 0
  if Nat.isValidChar code then some (Char.ofNat code) else none

def shortEscape? : Char → Option Char
  | 'b' => some '\x08'
  | 't' => some '\t'
  | 'n' => some '\n'
  | 'f' => some '\x0c'
  | 'r' => some '\r'
  | '"' => some '"'
  | '\\' => some '\\'
  | _ => none

/-- What is passed over after a backslash that ends its line: first the blanks up to the line end,
then everything up to the next visible character. -/
inductive Pass
  | nothing
  | toLineEnd
  | toText

def unescape : Pass → List Char → Option (List Char)
  | .toLineEnd, [] => none
  | .toLineEnd, c :: rest =>
    if isBlank c then unescape .toLineEnd rest
    else if c = '\n' then unescape .toText rest
    else none
  | _, [] => some []
  | _, ['\\'] => none
  | _, '\\' :: 'u' :: a :: b :: c :: d :: rest => do
    let char ← charOfHex? [a, b, c, d]
    (unescape .nothing rest).map (char :: ·)
  | _, '\\' :: 'U' :: a :: b :: c :: d :: e :: f :: g :: h :: rest => do
    let char ← charOfHex? [a, b, c, d, e, f, g, h]
    (unescape .nothing rest).map (char :: ·)
  | _, '\\' :: c :: rest =>
    match shortEscape? c with
    | some char => (unescape .nothing rest).map (char :: ·)
    | none =>
      if isBlank c then unescape .toLineEnd rest
      else if c = '\n' then unescape .toText rest
      else none
  | .toText, c :: rest =>
    if isBlank c || c == '\n' then unescape .toText rest
    else (unescape .nothing rest).map (c :: ·)
  | .nothing, c :: rest => (unescape .nothing rest).map (c :: ·)

/-- The text up to the quote that closes it, and what follows; after a backslash a quote does not
close if `escapes` is set. -/
def closeLine (quote : Char) (escapes : Bool) : List Char → Option (List Char × List Char)
  | [] => none
  | c :: rest =>
    if c = quote then some ([], rest)
    else if escapes && c == '\\' then
      match rest with
      | [] => none
      | d :: rest => (closeLine quote escapes rest).map fun (raw, rest) => (c :: d :: raw, rest)
    else (closeLine quote escapes rest).map fun (raw, rest) => (c :: raw, rest)

/-- The same for a text of several lines, which a run of three quotes closes; up to two more
belong to the text. -/
def closeLines (quote : Char) (escapes : Bool) : List Char → Option (List Char × List Char)
  | [] => none
  | c :: rest =>
    let run := ((c :: rest).takeWhile (· == quote)).length
    if 6 ≤ run then none
    else if 3 ≤ run then some (List.replicate (run - 3) quote, (c :: rest).drop run)
    else if escapes && c == '\\' then
      match rest with
      | [] => none
      | d :: rest => (closeLines quote escapes rest).map fun (raw, rest) => (c :: d :: raw, rest)
    else (closeLines quote escapes rest).map fun (raw, rest) => (c :: raw, rest)

/-- A line feed ends every line, and there are no other control characters. -/
def plainLines : List Char → Option (List Char)
  | [] => some []
  | '\r' :: '\n' :: rest => (plainLines rest).map ('\n' :: ·)
  | c :: rest => if c = '\n' || isPlain c then (plainLines rest).map (c :: ·) else none

/-- A line end right after the opening quotes does not count. -/
def dropFirstLineEnd : List Char → List Char
  | '\n' :: rest => rest
  | '\r' :: '\n' :: rest => rest
  | cs => cs

/-- A quoted text on one line. -/
def lineText (quote : Char) (escapes : Bool) (cs : List Char) : Option (String × List Char) := do
  let (raw, rest) ← closeLine quote escapes cs
  if raw.all isPlain then
    let text ← if escapes then unescape .nothing raw else some raw
    some (String.ofList text, rest)
  else none

/-- A quoted text of several lines. -/
def linesText (quote : Char) (escapes : Bool) (cs : List Char) : Option (String × List Char) := do
  let (raw, rest) ← closeLines quote escapes (dropFirstLineEnd cs)
  let lines ← plainLines raw
  let text ← if escapes then unescape .nothing lines else some lines
  some (String.ofList text, rest)

def text : Reader String := fun
  | '"' :: '"' :: '"' :: rest => linesText '"' true rest
  | '"' :: rest => lineText '"' true rest
  | '\'' :: '\'' :: '\'' :: rest => linesText '\'' false rest
  | '\'' :: rest => lineText '\'' false rest
  | _ => none

end ViewWiring.Toml
