import ViewWiring.Files.Tree

namespace ViewWiring

/-- Why a document could not be loaded: its file, its form or its content. -/
inductive LoadError (ε : Type)
  | unreadable (path : String) (reason : FileError)
  | malformed (reason : String)
  | invalid (error : ε)
  deriving DecidableEq

namespace LoadError

variable {ε : Type}

/-- The message for a document called `what`. -/
def message (what : String) (describe : ε → String) : LoadError ε → String
  | unreadable path reason => "could not read " ++ what ++ " " ++ path ++ ": " ++ reason.message
  | malformed reason => "could not parse " ++ what ++ ": " ++ reason
  | invalid error => describe error

/-- The message and then its cause, if it has one of its own. -/
def fullMessage (what : String) (describe : ε → String) (e : LoadError ε) : String :=
  match e with
  | unreadable _ reason => e.message what describe ++ ": " ++ reason.message
  | malformed reason => e.message what describe ++ ": " ++ reason
  | invalid _ => e.message what describe

end LoadError

/-- Text files hold Unicode text. -/
def decodeText (content : ByteArray) : Except FileError String :=
  match String.fromUTF8? content with
  | some text => .ok text
  | none => .error .notText

/-- Reads a document and checks what it says, so every fault of form comes before any fault of
content. -/
def readDocument {ε δ α : Type} (read : String → Except String δ) (check : δ → Except ε α)
    (text : String) : Except (LoadError ε) α := do
  let document ← (read text).mapError LoadError.malformed
  (check document).mapError LoadError.invalid

end ViewWiring
