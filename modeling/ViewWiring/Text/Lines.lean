namespace ViewWiring.Lines

/-- Drops one carriage return at the end. -/
def chopReturn (line : List Char) : List Char :=
  if line.getLast? = some '\r' then line.dropLast else line

/-- The lines of a text, each ended by a line feed, alone or after a carriage return; no line
follows the last line end. -/
def ofText (text : String) : List String :=
  match (text.toList.splitOn '\n').reverse with
  | [] => []
  | last :: ended =>
    (ended.reverse.map fun line => String.ofList (chopReturn line)) ++
      if last.isEmpty then [] else [String.ofList last]

end ViewWiring.Lines
