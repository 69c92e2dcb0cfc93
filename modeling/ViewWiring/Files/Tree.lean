import ViewWiring.Files.Path

namespace ViewWiring

/-- Why a file operation failed; the tree below gives the first five reasons only. -/
inductive FileError
  | notFound
  | notDirectory
  | alreadyExists
  | isDirectory
  | nameTooLong
  | notText
  | other (text : String)
  deriving DecidableEq

def FileError.message : FileError → String
  | notFound => "No such file or directory (os error 2)"
  | notDirectory => "Not a directory (os error 20)"
  | alreadyExists => "File exists (os error 17)"
  | isDirectory => "Is a directory (os error 21)"
  | nameTooLong => "File name too long (os error 36)"
  | notText => "stream did not contain valid UTF-8"
  | other text => text

/-- A file, or a directory with what it holds by name. -/
inductive Entry
  | file (content : ByteArray)
  | directory (entries : List (String × Entry))

namespace Entry

/-- The entry at the end of a list of names. -/
def find? : Entry → List String → Option Entry
  | e, [] => some e
  | file _, _ :: _ => none
  | directory es, name :: rest => (es.lookup name).bind fun e => e.find? rest

def replaceIn (es : List (String × Entry)) (name : String) (new : Entry) : List (String × Entry) :=
  es.map fun (n, e) => if n = name then (n, new) else (n, e)

/-- Puts an entry into a directory that exists, in place of the one of its name. -/
def put : Entry → List String → Entry → Entry
  | _, [], new => new
  | file content, _ :: _, _ => file content
  | directory es, name :: rest, new =>
    match es.lookup name with
    | some e => directory (replaceIn es name (e.put rest new))
    | none => if rest.isEmpty then directory (es ++ [(name, new)]) else directory es

/-- No name has more than 255 bytes. -/
def isTooLong (place : List String) : Bool :=
  match place.getLast? with
  | some name => 255 < name.utf8ByteSize
  | none => false

/-- Every one of the places must be a directory. -/
def passThrough (top : Entry) : List (List String) → Except FileError Unit
  | [] => .ok ()
  | place :: rest =>
    if isTooLong place then .error .nameTooLong
    else
      match top.find? place with
      | none => .error .notFound
      | some (file _) => .error .notDirectory
      | some (directory _) => passThrough top rest

/-- The entry at the end of the way through the given places. -/
def follow (top : Entry) (places : List (List String)) : Except FileError Entry :=
  match places.getLast? with
  | none => .error .notFound
  | some place => do
    passThrough top places.dropLast
    if isTooLong place then .error .nameTooLong
    else
      match top.find? place with
      | none => .error .notFound
      | some e => .ok e

def read (top : Entry) (places : List (List String)) : Except FileError ByteArray := do
  match ← top.follow places with
  | file content => .ok content
  | directory _ => .error .isDirectory

/-- Makes every one of the places a directory; those made before a failure stay. -/
def makeDirectories (top : Entry) : List (List String) → Except FileError Unit × Entry
  | [] => (.ok (), top)
  | place :: rest =>
    if isTooLong place then (.error .nameTooLong, top)
    else
      match top.find? place with
      | some (directory _) => top.makeDirectories rest
      | some (file _) => (.error (if rest.isEmpty then .alreadyExists else .notDirectory), top)
      | none => (top.put place (directory [])).makeDirectories rest

/-- Writes a file into a directory that exists. -/
def write (top : Entry) (place : List String) (content : ByteArray) :
    Except FileError Unit × Entry :=
  if isTooLong place then (.error .nameTooLong, top)
  else
    match top.find? place with
    | some (directory _) => (.error .isDirectory, top)
    | _ => (.ok (), top.put place (file content))

end Entry

end ViewWiring
