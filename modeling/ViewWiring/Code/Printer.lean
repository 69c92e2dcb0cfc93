import ViewWiring.Code.Names

namespace ViewWiring.Code

/-- What the text of a file depends on besides its code. -/
structure Style where
  names : Names
  indent : String

namespace Style

variable (s : Style)

def pad (level : Nat) : String := String.join (List.replicate level s.indent)

def annotationLine (level : Nat) (r : ClassRef) : String :=
  s.pad level ++ "@" ++ s.names.name r ++ "\n"

def result : ResultType → String
  | .void => "void"
  | .ofClass type => s.names.name type

def parameter (p : Parameter) : String := s.names.name p.type ++ " " ++ p.name

/-- The lines of a method before its body. -/
def methodHead (level : Nat) (name : String) (annotations : List ClassRef)
    (modifiers : List Modifier) (returns : ResultType) (params : List Parameter) : String :=
  String.join (annotations.map (s.annotationLine level)) ++ s.pad level ++
    " ".intercalate (modifiers.map Modifier.word ++ [s.result returns]) ++ " " ++ name ++ "(" ++
    ", ".intercalate (params.map s.parameter) ++ ") \x7b\n"

def methodFoot (level : Nat) : String := s.pad level ++ "\x7d\n"

end Style

/-- A cast binds less tightly than a call. -/
def Expr.isCast : Expr → Bool
  | .cast .. => true
  | _ => false

mutual

/-- The text of an expression on a line of the given level. -/
def Expr.print (s : Style) (level : Nat) : Expr → String
  | .ident name => name
  | .int value => toString value
  | .super => "super"
  | .call none method args => method ++ "(" ++ ", ".intercalate (Expr.printAll s level args) ++ ")"
  | .call (some target) method args =>
    (if target.isCast then "(" ++ target.print s level ++ ")" else target.print s level) ++ "." ++
      method ++ "(" ++ ", ".intercalate (Expr.printAll s level args) ++ ")"
  | .cast type value => "(" ++ s.names.name type ++ ") " ++ value.print s level
  | .new type methods =>
    "new " ++ s.names.name type ++ "() \x7b\n" ++
      "\n".intercalate (Method.printAll s (level + 1) methods) ++ s.pad level ++ "\x7d"

def Expr.printAll (s : Style) (level : Nat) : List Expr → List String
  | [] => []
  | e :: es => e.print s level :: Expr.printAll s level es

def Statement.print (s : Style) (level : Nat) : Statement → String
  | .expr value => s.pad level ++ value.print s level ++ ";\n"
  | .assign target value => s.pad level ++ target ++ " = " ++ value.print s level ++ ";\n"
  | .declare type name value =>
    s.pad level ++ s.names.name type ++ " " ++ name ++ " = " ++ value.print s level ++ ";\n"

def Statement.printAll (s : Style) (level : Nat) : List Statement → String
  | [] => ""
  | st :: sts => st.print s level ++ Statement.printAll s level sts

/-- The texts of the sections that have statements. -/
def Statement.printSections (s : Style) (level : Nat) : List (List Statement) → List String
  | [] => []
  | sts :: rest =>
    if sts.isEmpty then Statement.printSections s level rest
    else Statement.printAll s level sts :: Statement.printSections s level rest

/-- The lines of a method, the first of them at the given level. -/
def Method.print (s : Style) (level : Nat) : Method → String
  | ⟨name, annotations, modifiers, returns, params, sections⟩ =>
    s.methodHead level name annotations modifiers returns params ++
      "\n".intercalate (Statement.printSections s (level + 1) sections) ++ s.methodFoot level

def Method.printAll (s : Style) (level : Nat) : List Method → List String
  | [] => []
  | m :: ms => m.print s level :: Method.printAll s level ms

end

namespace SourceFile

def packageLine (f : SourceFile) : String :=
  if f.package.isEmpty then "" else "package " ++ f.package ++ ";\n\n"

def importBlock (imports : List String) : String :=
  if imports.isEmpty then ""
  else String.join (imports.map fun i => "import " ++ i ++ ";\n") ++ "\n"

def classHead (names : Names) (f : SourceFile) : String :=
  String.join (f.modifiers.map fun m => m.word ++ " ") ++ "class " ++ f.className ++
    (match f.superclass with
      | some r => " extends " ++ names.name r
      | none => "") ++ " \x7b\n"

/-- The text of a file, its lines indented by copies of `indent`. -/
def print (indent : String) (f : SourceFile) : String :=
  let names := Names.ofFile f
  f.packageLine ++ importBlock names.imports ++ f.classHead names ++
    "\n".intercalate (Method.printAll ⟨names, indent⟩ 1 f.methods) ++ "\x7d\n"

end SourceFile

end ViewWiring.Code
