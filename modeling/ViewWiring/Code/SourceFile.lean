import ViewWiring.Code.ClassRef
import ViewWiring.Member

namespace ViewWiring.Code

inductive ResultType
  | void
  | ofClass (type : ClassRef)
  deriving DecidableEq

structure Parameter where
  type : ClassRef
  name : String
  deriving DecidableEq

mutual

/-- An expression; a call without a target is one on the object at hand, and a new object is one
of an unnamed subclass with the given methods. -/
inductive Expr
  | ident (name : String)
  | int (value : Int)
  | super
  | call (target : Option Expr) (method : String) (args : List Expr)
  | cast (type : ClassRef) (value : Expr)
  | new (type : ClassRef) (methods : List Method)

inductive Statement
  | expr (value : Expr)
  | assign (target : String) (value : Expr)
  | declare (type : ClassRef) (name : String) (value : Expr)

/-- A method whose statements stand in sections, set apart by empty lines. -/
structure Method where
  name : String
  annotations : List ClassRef
  modifiers : List Modifier
  returns : ResultType
  params : List Parameter
  sections : List (List Statement)

end

def Method.statements (m : Method) : List Statement := m.sections.flatten

/-- A file with one class. -/
structure SourceFile where
  package : String
  className : String
  modifiers : List Modifier
  superclass : Option ClassRef
  methods : List Method

def SourceFile.qualifiedName (f : SourceFile) : String :=
  (ClassRef.mk f.package f.className).qualified

def ResultType.refs : ResultType → List ClassRef
  | void => []
  | ofClass type => [type]

mutual

/-- The classes that an expression mentions, from left to right. -/
def Expr.refs : Expr → List ClassRef
  | .ident _ | .int _ | .super => []
  | .call none _ args => Expr.refsAll args
  | .call (some target) _ args => target.refs ++ Expr.refsAll args
  | .cast type value => type :: value.refs
  | .new type methods => type :: Method.refsAll methods

def Expr.refsAll : List Expr → List ClassRef
  | [] => []
  | e :: es => e.refs ++ Expr.refsAll es

def Statement.refs : Statement → List ClassRef
  | .expr value | .assign _ value => value.refs
  | .declare type _ value => type :: value.refs

def Statement.refsAll : List Statement → List ClassRef
  | [] => []
  | s :: ss => s.refs ++ Statement.refsAll ss

def Statement.refsOfSections : List (List Statement) → List ClassRef
  | [] => []
  | ss :: rest => Statement.refsAll ss ++ Statement.refsOfSections rest

def Method.refs : Method → List ClassRef
  | ⟨_, annotations, _, returns, params, sections⟩ =>
    annotations ++ returns.refs ++ params.map Parameter.type ++ Statement.refsOfSections sections

def Method.refsAll : List Method → List ClassRef
  | [] => []
  | m :: ms => m.refs ++ Method.refsAll ms

end

/-- Every class that a file mentions, in the order of the text. -/
def SourceFile.refs (f : SourceFile) : List ClassRef :=
  f.superclass.toList ++ Method.refsAll f.methods

theorem Expr.refsAll_eq_flatMap (es : List Expr) : Expr.refsAll es = es.flatMap Expr.refs := by
  induction es with
  | nil => rfl
  | cons e es ih => simp [Expr.refsAll, ih]

theorem Statement.refsAll_eq_flatMap (ss : List Statement) :
    Statement.refsAll ss = ss.flatMap Statement.refs := by
  induction ss with
  | nil => rfl
  | cons s ss ih => simp [Statement.refsAll, ih]

theorem Statement.refsOfSections_eq_flatMap (sections : List (List Statement)) :
    Statement.refsOfSections sections = sections.flatten.flatMap Statement.refs := by
  induction sections with
  | nil => rfl
  | cons ss rest ih =>
    simp [Statement.refsOfSections, Statement.refsAll_eq_flatMap, ih]

theorem Method.refsAll_eq_flatMap (ms : List Method) :
    Method.refsAll ms = ms.flatMap Method.refs := by
  induction ms with
  | nil => rfl
  | cons m ms ih => simp [Method.refsAll, ih]

end ViewWiring.Code
