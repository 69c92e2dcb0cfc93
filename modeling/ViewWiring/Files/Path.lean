namespace ViewWiring.Path

/-- Goes on from `base` to `part`; a part that begins at the top forgets where it came from. -/
def join (base part : String) : String :=
  if part.toList.head? = some '/' then part
  else if base.isEmpty || base.toList.getLast? = some '/' then base ++ part
  else base ++ "/" ++ part

/-- The names that a path goes through; a slash at the end asks for a directory, as a dot does. -/
def segments (path : String) : List String :=
  ((path.toList.splitOn '/').map String.ofList).filter (fun name => !name.isEmpty) ++
    if path.toList.getLast? = some '/' then ["."] else []

def step (here : List String) (name : String) : List String :=
  if name = "." then here else if name = ".." then here.dropLast else here ++ [name]

/-- The places that the segments lead to one after the other, each given by its names from the
top. -/
def visits (here : List String) : List String → List (List String)
  | [] => []
  | name :: rest => step here name :: visits (step here name) rest

/-- All places on the way of a path from the top. -/
def places (path : String) : List (List String) := visits [] (segments path)

/-- The places on the way to what the path ends in, where dots ask for nothing. -/
def folderPlaces (path : String) : List (List String) :=
  visits [] ((segments path).dropLast.filter (· != "."))

end ViewWiring.Path
