import ViewWiring.Diagnostic
import ViewWiring.Text.Lines

namespace ViewWiring.Diagnostic

/-- The control sequences that set the parts of a printed diagnostic off. -/
structure Palette where
  beginLabel : String
  beginMessage : String
  endMessage : String
  beginBullet : String
  endBullet : String

def Palette.plain : Palette := ⟨"", "", "", "", ""⟩

/-- A bold red label, a bold message and a blue bullet. -/
def Palette.ansi : Palette :=
  ⟨"\x1b[0m\x1b[1m\x1b[38;5;9m", "\x1b[0m\x1b[1m", "\x1b[0m", "\x1b[0m\x1b[34m", "\x1b[0m"⟩

/-- A note hangs from a bullet; its further lines are aligned with the first. -/
def noteLines (p : Palette) (note : String) : List String :=
  match Lines.ofText note with
  | [] => []
  | first :: more =>
    (" " ++ p.beginBullet ++ "=" ++ p.endBullet ++ " " ++ first) :: more.map fun line => "   " ++ line

/-- The message, then the anchor and the notes, then an empty line. -/
def display (p : Palette) (d : Diagnostic) : String :=
  let place := d.anchor.toList.map fun a => "at " ++ a.text
  let header := p.beginLabel ++ "error[" ++ d.kind.code ++ "]" ++ p.beginMessage ++ ": " ++
    d.message ++ p.endMessage
  String.join ((header :: (place ++ d.notes).flatMap (noteLines p) ++ [""]).map fun line =>
    line ++ "\n")

end ViewWiring.Diagnostic
