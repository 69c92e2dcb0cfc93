import ViewWiring.Code.Printer
import Mathlib.Data.List.Basic

namespace ViewWiring.Code

/-- A stretch of printed code: a text that is there whatever the classes are called, or the name of
a class. -/
inductive Piece
  | fixed (text : String)
  | className (r : ClassRef)

namespace Piece

def fill (names : Names) : Piece → String
  | fixed text => text
  | className r => names.name r

def class? : Piece → Option ClassRef
  | fixed _ => none
  | className r => some r

/-- The text of some pieces where the classes have the given names. -/
def fillAll (names : Names) (pieces : List Piece) : String := String.join (pieces.map (fill names))

/-- The classes that some pieces name, from left to right. -/
def classes (pieces : List Piece) : List ClassRef := pieces.filterMap class?

def separated (sep : String) (parts : List (List Piece)) : List Piece :=
  [fixed sep].intercalate parts

variable (names : Names) (pieces pieces' : List Piece) (text sep : String) (r : ClassRef)
  (parts : List (List Piece))

@[simp] theorem fillAll_nil : fillAll names [] = "" := rfl

@[simp] theorem fillAll_fixed :
    fillAll names (fixed text :: pieces) = text ++ fillAll names pieces := by
  simp [fillAll, fill]

@[simp] theorem fillAll_className :
    fillAll names (className r :: pieces) = names.name r ++ fillAll names pieces := by
  simp [fillAll, fill]

@[simp] theorem fillAll_append :
    fillAll names (pieces ++ pieces') = fillAll names pieces ++ fillAll names pieces' := by
  simp [fillAll]

@[simp] theorem fillAll_separated :
    fillAll names (separated sep parts) = sep.intercalate (parts.map (fillAll names)) := by
  cases parts with
  | nil => rfl
  | cons first rest =>
    induction rest generalizing first with
    | nil => simp [separated]
    | cons second rest ih =>
      rw [separated, List.intercalate_cons_cons, fillAll_append, fillAll_append, ← separated,
        ih second, List.map_cons, List.map_cons, List.map_cons, String.intercalate_cons_cons]
      simp

@[simp] theorem classes_nil : classes [] = [] := rfl

@[simp] theorem classes_fixed : classes (fixed text :: pieces) = classes pieces := rfl

@[simp] theorem classes_className : classes (className r :: pieces) = r :: classes pieces := rfl

@[simp] theorem classes_append : classes (pieces ++ pieces') = classes pieces ++ classes pieces' :=
  List.filterMap_append

@[simp] theorem classes_separated : classes (separated sep parts) = parts.flatMap classes := by
  cases parts with
  | nil => rfl
  | cons first rest =>
    induction rest generalizing first with
    | nil => simp [separated]
    | cons second rest ih =>
      rw [separated, List.intercalate_cons_cons, classes_append, classes_append, ← separated,
        ih second, List.flatMap_cons]
      simp

end Piece

open Piece

def padding (indent : String) (level : Nat) : String := String.join (List.replicate level indent)

def ResultType.pieces : ResultType → List Piece
  | .void => [.fixed "void"]
  | .ofClass type => [.className type]

def Parameter.pieces (p : Parameter) : List Piece := [.className p.type, .fixed (" " ++ p.name)]

/-- The lines of a method before its body. -/
def headPieces (indent : String) (level : Nat) (name : String) (annotations : List ClassRef)
    (modifiers : List Modifier) (returns : ResultType) (params : List Parameter) : List Piece :=
  (annotations.flatMap fun r =>
      [.fixed (padding indent level ++ "@"), .className r, .fixed "\n"]) ++
    .fixed (padding indent level) :: (modifiers.map fun m => .fixed (m.word ++ " ")) ++
    returns.pieces ++ .fixed (" " ++ name ++ "(") :: separated ", " (params.map Parameter.pieces) ++
    [.fixed ") \x7b\n"]

mutual

/-- An expression as it is printed, the names of the classes left open. -/
def Expr.pieces (indent : String) (level : Nat) : Expr → List Piece
  | .ident name => [.fixed name]
  | .int value => [.fixed (toString value)]
  | .super => [.fixed "super"]
  | .call none method args =>
    .fixed (method ++ "(") :: separated ", " (Expr.piecesAll indent level args) ++ [.fixed ")"]
  | .call (some target) method args =>
    (if target.isCast then .fixed "(" :: target.pieces indent level ++ [.fixed ")"]
      else target.pieces indent level) ++
      .fixed ("." ++ method ++ "(") :: separated ", " (Expr.piecesAll indent level args) ++
      [.fixed ")"]
  | .cast type value => .fixed "(" :: .className type :: .fixed ") " :: value.pieces indent level
  | .new type methods =>
    .fixed "new " :: .className type :: .fixed "() \x7b\n" ::
      separated "\n" (Method.piecesAll indent (level + 1) methods) ++
      [.fixed (padding indent level ++ "\x7d")]

def Expr.piecesAll (indent : String) (level : Nat) : List Expr → List (List Piece)
  | [] => []
  | e :: es => e.pieces indent level :: Expr.piecesAll indent level es

def Statement.pieces (indent : String) (level : Nat) : Statement → List Piece
  | .expr value => .fixed (padding indent level) :: value.pieces indent level ++ [.fixed ";\n"]
  | .assign target value =>
    .fixed (padding indent level ++ target ++ " = ") :: value.pieces indent level ++ [.fixed ";\n"]
  | .declare type name value =>
    .fixed (padding indent level) :: .className type :: .fixed (" " ++ name ++ " = ") ::
      value.pieces indent level ++ [.fixed ";\n"]

def Statement.piecesAll (indent : String) (level : Nat) : List Statement → List Piece
  | [] => []
  | st :: sts => st.pieces indent level ++ Statement.piecesAll indent level sts

def Statement.piecesOfSections (indent : String) (level : Nat) :
    List (List Statement) → List (List Piece)
  | [] => []
  | sts :: rest =>
    if sts.isEmpty then Statement.piecesOfSections indent level rest
    else Statement.piecesAll indent level sts :: Statement.piecesOfSections indent level rest

def Method.pieces (indent : String) (level : Nat) : Method → List Piece
  | ⟨name, annotations, modifiers, returns, params, sections⟩ =>
    headPieces indent level name annotations modifiers returns params ++
      separated "\n" (Statement.piecesOfSections indent (level + 1) sections) ++
      [.fixed (padding indent level ++ "\x7d\n")]

def Method.piecesAll (indent : String) (level : Nat) : List Method → List (List Piece)
  | [] => []
  | m :: ms => m.pieces indent level :: Method.piecesAll indent level ms

end

/-- A file as it is printed behind its imports, the names of the classes left open. -/
def SourceFile.pieces (indent : String) (f : SourceFile) : List Piece :=
  .fixed (String.join (f.modifiers.map fun m => m.word ++ " ") ++ "class " ++ f.className) ::
    (f.superclass.toList.flatMap fun r => [.fixed " extends ", .className r]) ++
    .fixed " \x7b\n" :: separated "\n" (Method.piecesAll indent 1 f.methods) ++ [.fixed "\x7d\n"]

variable (names : Names) (indent : String) (level : Nat)

theorem Style.pad_eq : (Style.mk names indent).pad level = padding indent level := rfl

theorem ResultType.fillAll_pieces (t : ResultType) :
    fillAll names t.pieces = (Style.mk names indent).result t := by
  cases t with
  | void => rfl
  | ofClass type => simp [ResultType.pieces, Style.result]

theorem Parameter.fillAll_pieces (p : Parameter) :
    fillAll names p.pieces = (Style.mk names indent).parameter p := by
  simp [Parameter.pieces, Style.parameter, String.append_assoc]

theorem fillAll_annotations (annotations : List ClassRef) :
    fillAll names (annotations.flatMap fun r =>
        [.fixed (padding indent level ++ "@"), .className r, .fixed "\n"]) =
      String.join (annotations.map ((Style.mk names indent).annotationLine level)) := by
  induction annotations with
  | nil => rfl
  | cons r rs ih => simp [ih, Style.annotationLine, Style.pad_eq, String.append_assoc]

/-- Words with a blank between them are words with a blank behind each but the last. -/
theorem intercalate_blank (words : List String) (last : String) :
    " ".intercalate (words ++ [last]) = String.join (words.map (· ++ " ")) ++ last := by
  induction words with
  | nil => simp
  | cons w ws ih =>
    rw [List.cons_append, String.intercalate_cons_of_ne_nil (by simp), ih]
    simp [String.append_assoc]

theorem fillAll_modifiers (modifiers : List Modifier) :
    fillAll names (modifiers.map fun m => .fixed (m.word ++ " ")) =
      String.join (modifiers.map fun m => m.word ++ " ") := by
  simp [fillAll, Function.comp_def, fill]

theorem fillAll_headPieces (name : String) (annotations : List ClassRef) (modifiers : List Modifier)
    (returns : ResultType) (params : List Parameter) :
    fillAll names (headPieces indent level name annotations modifiers returns params) =
      (Style.mk names indent).methodHead level name annotations modifiers returns params := by
  have hparams : params.map (fun p => fillAll names p.pieces) =
      params.map (Style.mk names indent).parameter :=
    List.map_congr_left fun p _ => p.fillAll_pieces names indent
  simp [headPieces, Style.methodHead, fillAll_annotations, fillAll_modifiers, intercalate_blank,
    returns.fillAll_pieces names indent, hparams, Style.pad_eq, String.append_assoc,
    Function.comp_def]

mutual

/-- The names of the classes are all that the text of an expression takes from a file. -/
theorem Expr.fillAll_pieces (level : Nat) : ∀ e : Expr,
    fillAll names (e.pieces indent level) = e.print ⟨names, indent⟩ level
  | .ident _ | .int _ | .super => by simp [Expr.pieces, Expr.print]
  | .call none method args => by
    simp [Expr.pieces, Expr.print, Expr.fillAll_piecesAll level args, String.append_assoc]
  | .call (some target) method args => by
    simp only [Expr.pieces, Expr.print, apply_ite (fillAll names), fillAll_append, fillAll_fixed,
      fillAll_separated, Expr.fillAll_piecesAll level args, Expr.fillAll_pieces level target,
      fillAll_nil, String.append_empty, String.append_assoc]
  | .cast type value => by
    simp [Expr.pieces, Expr.print, Expr.fillAll_pieces level value, String.append_assoc]
  | .new type methods => by
    simp [Expr.pieces, Expr.print, Method.fillAll_piecesAll (level + 1) methods, Style.pad_eq,
      String.append_assoc]

theorem Expr.fillAll_piecesAll (level : Nat) : ∀ es : List Expr,
    (Expr.piecesAll indent level es).map (fillAll names) = Expr.printAll ⟨names, indent⟩ level es
  | [] => rfl
  | e :: es => by
    simp [Expr.piecesAll, Expr.printAll, Expr.fillAll_pieces level e,
      Expr.fillAll_piecesAll level es]

theorem Statement.fillAll_pieces (level : Nat) : ∀ st : Statement,
    fillAll names (st.pieces indent level) = st.print ⟨names, indent⟩ level
  | .expr value | .assign _ value | .declare _ _ value => by
    simp [Statement.pieces, Statement.print, Expr.fillAll_pieces level value, Style.pad_eq,
      String.append_assoc]

theorem Statement.fillAll_piecesAll (level : Nat) : ∀ sts : List Statement,
    fillAll names (Statement.piecesAll indent level sts) =
      Statement.printAll ⟨names, indent⟩ level sts
  | [] => rfl
  | st :: sts => by
    simp [Statement.piecesAll, Statement.printAll, Statement.fillAll_pieces level st,
      Statement.fillAll_piecesAll level sts]

theorem Statement.fillAll_piecesOfSections (level : Nat) : ∀ sections : List (List Statement),
    (Statement.piecesOfSections indent level sections).map (fillAll names) =
      Statement.printSections ⟨names, indent⟩ level sections
  | [] => rfl
  | sts :: rest => by
    rw [Statement.piecesOfSections, Statement.printSections]
    split
    · exact Statement.fillAll_piecesOfSections level rest
    · rw [List.map_cons, Statement.fillAll_piecesAll level sts,
        Statement.fillAll_piecesOfSections level rest]

theorem Method.fillAll_pieces (level : Nat) : ∀ m : Method,
    fillAll names (m.pieces indent level) = m.print ⟨names, indent⟩ level
  | ⟨name, annotations, modifiers, returns, params, sections⟩ => by
    simp [Method.pieces, Method.print, fillAll_headPieces,
      Statement.fillAll_piecesOfSections (level + 1) sections, Style.methodFoot, Style.pad_eq,
      String.append_assoc]

theorem Method.fillAll_piecesAll (level : Nat) : ∀ ms : List Method,
    (Method.piecesAll indent level ms).map (fillAll names) =
      Method.printAll ⟨names, indent⟩ level ms
  | [] => rfl
  | m :: ms => by
    simp [Method.piecesAll, Method.printAll, Method.fillAll_pieces level m,
      Method.fillAll_piecesAll level ms]

end

theorem ResultType.classes_pieces (t : ResultType) : classes t.pieces = t.refs := by
  cases t <;> rfl

theorem classes_headPieces (name : String) (annotations : List ClassRef) (modifiers : List Modifier)
    (returns : ResultType) (params : List Parameter) :
    classes (headPieces indent level name annotations modifiers returns params) =
      annotations ++ returns.refs ++ params.map Parameter.type := by
  have hannotations : classes (annotations.flatMap fun r =>
      [.fixed (padding indent level ++ "@"), .className r, .fixed "\n"]) = annotations := by
    induction annotations with
    | nil => rfl
    | cons r rs ih => simp [ih]
  have hmodifiers : classes (modifiers.map fun m => .fixed (m.word ++ " ")) = [] := by
    simp [classes, class?]
  have hparams : (params.map Parameter.pieces).flatMap classes = params.map Parameter.type := by
    induction params with
    | nil => rfl
    | cons p ps ih => simp [ih, Parameter.pieces]
  simp [headPieces, hannotations, hmodifiers, hparams, returns.classes_pieces]

mutual

/-- What is printed as the names of classes are those that the expression mentions, in order. -/
theorem Expr.classes_pieces (level : Nat) : ∀ e : Expr, classes (e.pieces indent level) = e.refs
  | .ident _ | .int _ | .super => rfl
  | .call none method args => by
    simp [Expr.pieces, Expr.refs, Expr.classes_piecesAll level args]
  | .call (some target) method args => by
    simp [Expr.pieces, Expr.refs, Expr.classes_piecesAll level args,
      Expr.classes_pieces level target, apply_ite classes]
  | .cast type value => by simp [Expr.pieces, Expr.refs, Expr.classes_pieces level value]
  | .new type methods => by
    simp [Expr.pieces, Expr.refs, Method.classes_piecesAll (level + 1) methods]

theorem Expr.classes_piecesAll (level : Nat) : ∀ es : List Expr,
    (Expr.piecesAll indent level es).flatMap classes = Expr.refsAll es
  | [] => rfl
  | e :: es => by
    simp [Expr.piecesAll, Expr.refsAll, Expr.classes_pieces level e,
      Expr.classes_piecesAll level es]

theorem Statement.classes_pieces (level : Nat) : ∀ st : Statement,
    classes (st.pieces indent level) = st.refs
  | .expr value | .assign _ value | .declare _ _ value => by
    simp [Statement.pieces, Statement.refs, Expr.classes_pieces level value]

theorem Statement.classes_piecesAll (level : Nat) : ∀ sts : List Statement,
    classes (Statement.piecesAll indent level sts) = Statement.refsAll sts
  | [] => rfl
  | st :: sts => by
    simp [Statement.piecesAll, Statement.refsAll, Statement.classes_pieces level st,
      Statement.classes_piecesAll level sts]

theorem Statement.classes_piecesOfSections (level : Nat) : ∀ sections : List (List Statement),
    (Statement.piecesOfSections indent level sections).flatMap classes =
      Statement.refsOfSections sections
  | [] => rfl
  | [] :: rest => Statement.classes_piecesOfSections level rest
  | (st :: sts) :: rest => by
    simp [Statement.piecesOfSections, Statement.refsOfSections,
      Statement.classes_piecesAll level (st :: sts), Statement.classes_piecesOfSections level rest]

theorem Method.classes_pieces (level : Nat) : ∀ m : Method,
    classes (m.pieces indent level) = m.refs
  | ⟨name, annotations, modifiers, returns, params, sections⟩ => by
    simp [Method.pieces, Method.refs, classes_headPieces,
      Statement.classes_piecesOfSections (level + 1) sections]

theorem Method.classes_piecesAll (level : Nat) : ∀ ms : List Method,
    (Method.piecesAll indent level ms).flatMap classes = Method.refsAll ms
  | [] => rfl
  | m :: ms => by
    simp [Method.piecesAll, Method.refsAll, Method.classes_pieces level m,
      Method.classes_piecesAll level ms]

end

namespace SourceFile

variable (f : SourceFile)

/-- Behind its imports a file is its pieces, filled in with the names that classes have in it. -/
theorem print_eq_fillAll :
    f.print indent = f.packageLine ++ importBlock (Names.ofFile f).imports ++
      fillAll (Names.ofFile f) (f.pieces indent) := by
  cases h : f.superclass <;>
    simp [print, pieces, classHead, h, Method.fillAll_piecesAll, String.append_assoc]

/-- The pieces name the classes that the file mentions, and no others. -/
theorem classes_pieces : classes (f.pieces indent) = f.refs := by
  have hsuper : classes (f.superclass.toList.flatMap fun r => [.fixed " extends ", .className r]) =
      f.superclass.toList := by
    cases f.superclass <;> rfl
  simp [pieces, refs, hsuper, Method.classes_piecesAll]

end SourceFile

end ViewWiring.Code
