import ViewWiring.TypeName

namespace ViewWiring

inductive Primitive
  | boolean | byte | char | short | int | long | float | double
  deriving DecidableEq

namespace Primitive

def name : Primitive → String
  | boolean => "boolean"
  | byte => "byte"
  | char => "char"
  | short => "short"
  | int => "int"
  | long => "long"
  | float => "float"
  | double => "double"

def all : List Primitive := [boolean, byte, char, short, int, long, float, double]

def ofName? (text : String) : Option Primitive := all.find? fun p => p.name == text

theorem ofName?_name (p : Primitive) : ofName? p.name = some p := by
  cases p <;> decide

end Primitive

/-- The type of a field, parameter or result. -/
inductive TypeRef
  | void
  | primitive (type : Primitive)
  | declared (name : TypeName)
  deriving DecidableEq

namespace TypeRef

/-- Every text that is neither `void` nor a primitive type names a class. -/
def ofText (text : String) : TypeRef :=
  if text = "void" then void
  else
    match Primitive.ofName? text with
    | some p => primitive p
    | none => declared ⟨text⟩

def text : TypeRef → String
  | void => "void"
  | primitive p => p.name
  | declared name => name.text

def declaredName? : TypeRef → Option TypeName
  | declared name => some name
  | _ => none

end TypeRef

end ViewWiring
