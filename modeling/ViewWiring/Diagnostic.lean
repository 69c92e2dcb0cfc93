import ViewWiring.TypeName

namespace ViewWiring

namespace Diagnostic

/-- What a diagnostic is about, in the order in which a batch can meet them. -/
inductive Kind
  | invalidDeclarationKind
  | missingRequiredBase
  | invalidMemberType
  | illegalPrivateModifier
  | invalidSignature
  | duplicateComponent
  | missingLayoutDirective
  | emissionFailure
  deriving DecidableEq

namespace Kind

def code : Kind → String
  | invalidDeclarationKind => "E0001"
  | missingRequiredBase => "E0002"
  | invalidMemberType => "E0003"
  | illegalPrivateModifier => "E0004"
  | invalidSignature => "E0005"
  | duplicateComponent => "E0006"
  | missingLayoutDirective => "E0007"
  | emissionFailure => "E0008"

def name : Kind → String
  | invalidDeclarationKind => "InvalidDeclarationKind"
  | missingRequiredBase => "MissingRequiredBase"
  | invalidMemberType => "InvalidMemberType"
  | illegalPrivateModifier => "IllegalPrivateModifier"
  | invalidSignature => "InvalidSignature"
  | duplicateComponent => "DuplicateComponent"
  | missingLayoutDirective => "MissingLayoutDirective"
  | emissionFailure => "EmissionIOFailure"

def all : List Kind :=
  [invalidDeclarationKind, missingRequiredBase, invalidMemberType, illegalPrivateModifier,
    invalidSignature, duplicateComponent, missingLayoutDirective, emissionFailure]

def ofName? (text : String) : Option Kind := all.find? fun k => k.name == text

end Kind

/-- The declaration that a diagnostic is about, or one of its members. -/
structure Anchor where
  component : TypeName
  member : Option String
  deriving DecidableEq

def Anchor.text (a : Anchor) : String :=
  match a.member with
  | some member => a.component.text ++ "#" ++ member
  | none => a.component.text

end Diagnostic

structure Diagnostic where
  kind : Diagnostic.Kind
  message : String
  anchor : Option Diagnostic.Anchor
  notes : List String
  deriving DecidableEq

namespace Diagnostic

/-- A diagnostic that has no place yet. -/
def ofMessage (kind : Kind) (message : String) : Diagnostic := ⟨kind, message, none, []⟩

/-- Moves the diagnostic to `a`. -/
def movedTo (d : Diagnostic) (a : Anchor) : Diagnostic := { d with anchor := some a }

def anchored (kind : Kind) (message : String) (a : Anchor) : Diagnostic :=
  (ofMessage kind message).movedTo a

def withNote (d : Diagnostic) (note : String) : Diagnostic := { d with notes := d.notes ++ [note] }

@[simp] theorem anchored_eq (kind : Kind) (message : String) (a : Anchor) :
    anchored kind message a = ⟨kind, message, some a, []⟩ :=
  rfl

@[simp] theorem withNote_eq (d : Diagnostic) (note : String) :
    d.withNote note = ⟨d.kind, d.message, d.anchor, d.notes ++ [note]⟩ :=
  rfl

/-- The diagnostic in one line, without its notes. -/
def summary (d : Diagnostic) : String :=
  "error[" ++ d.kind.code ++ "]: " ++ d.message ++
    match d.anchor with
    | some a => " (at " ++ a.text ++ ")"
    | none => ""

end Diagnostic

end ViewWiring
