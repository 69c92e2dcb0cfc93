import ViewWiring.Code.Printer
import ViewWiring.Proofs.Text.EmptyLines

namespace ViewWiring.Code

mutual

/-- An expression with the sections of every method in it set anew, those of inner methods first. -/
def Expr.regroup (group : List (List Statement) → List (List Statement)) : Expr → Expr
  | .ident name => .ident name
  | .int value => .int value
  | .super => .super
  | .call none method args => .call none method (Expr.regroupAll group args)
  | .call (some target) method args =>
    .call (some (target.regroup group)) method (Expr.regroupAll group args)
  | .cast type value => .cast type (value.regroup group)
  | .new type methods => .new type (Method.regroupAll group methods)

def Expr.regroupAll (group : List (List Statement) → List (List Statement)) :
    List Expr → List Expr
  | [] => []
  | e :: es => e.regroup group :: Expr.regroupAll group es

def Statement.regroup (group : List (List Statement) → List (List Statement)) :
    Statement → Statement
  | .expr value => .expr (value.regroup group)
  | .assign target value => .assign target (value.regroup group)
  | .declare type name value => .declare type name (value.regroup group)

def Statement.regroupAll (group : List (List Statement) → List (List Statement)) :
    List Statement → List Statement
  | [] => []
  | st :: sts => st.regroup group :: Statement.regroupAll group sts

def Statement.regroupSections (group : List (List Statement) → List (List Statement)) :
    List (List Statement) → List (List Statement)
  | [] => []
  | sts :: rest => Statement.regroupAll group sts :: Statement.regroupSections group rest

def Method.regroup (group : List (List Statement) → List (List Statement)) : Method → Method
  | ⟨name, annotations, modifiers, returns, params, sections⟩ =>
    ⟨name, annotations, modifiers, returns, params,
      group (Statement.regroupSections group sections)⟩

def Method.regroupAll (group : List (List Statement) → List (List Statement)) :
    List Method → List Method
  | [] => []
  | m :: ms => m.regroup group :: Method.regroupAll group ms

end

def SourceFile.regroup (group : List (List Statement) → List (List Statement)) (f : SourceFile) :
    SourceFile :=
  { f with methods := Method.regroupAll group f.methods }

/-- Leaves out the sections without statements. -/
def dropEmptySections (sections : List (List Statement)) : List (List Statement) :=
  sections.filter fun sts => !sts.isEmpty

/-- Puts all statements into one section. -/
def joinSections (sections : List (List Statement)) : List (List Statement) := [sections.flatten]

def Statement.compact : Statement → Statement := Statement.regroup dropEmptySections

def SourceFile.compact : SourceFile → SourceFile := SourceFile.regroup dropEmptySections

/-- A file whose methods, at any depth, have one section each; what is left are their statements. -/
def SourceFile.ungrouped : SourceFile → SourceFile := SourceFile.regroup joinSections

section Refs

variable {group : List (List Statement) → List (List Statement)}

/-- Setting sections anew leaves the statements and their order as they are. -/
def KeepsStatements (group : List (List Statement) → List (List Statement)) : Prop :=
  ∀ sections, (group sections).flatten = sections.flatten

mutual

/-- However the statements are grouped, they mention their classes in the same order. -/
theorem Expr.refs_regroup (h : KeepsStatements group) : ∀ e : Expr, (e.regroup group).refs = e.refs
  | .ident _ | .int _ | .super => rfl
  | .call none method args => by
    rw [Expr.regroup, Expr.refs, Expr.refs, Expr.refsAll_regroupAll h args]
  | .call (some target) method args => by
    rw [Expr.regroup, Expr.refs, Expr.refs, Expr.refs_regroup h target,
      Expr.refsAll_regroupAll h args]
  | .cast type value => by rw [Expr.regroup, Expr.refs, Expr.refs, Expr.refs_regroup h value]
  | .new type methods => by
    rw [Expr.regroup, Expr.refs, Expr.refs, Method.refsAll_regroupAll h methods]

theorem Expr.refsAll_regroupAll (h : KeepsStatements group) : ∀ es : List Expr,
    Expr.refsAll (Expr.regroupAll group es) = Expr.refsAll es
  | [] => rfl
  | e :: es => by
    rw [Expr.regroupAll, Expr.refsAll, Expr.refsAll, Expr.refs_regroup h e,
      Expr.refsAll_regroupAll h es]

theorem Statement.refs_regroup (h : KeepsStatements group) : ∀ st : Statement,
    (st.regroup group).refs = st.refs
  | .expr value | .assign _ value | .declare _ _ value => by
    simp only [Statement.regroup, Statement.refs, Expr.refs_regroup h value]

theorem Statement.refsAll_regroupAll (h : KeepsStatements group) : ∀ sts : List Statement,
    Statement.refsAll (Statement.regroupAll group sts) = Statement.refsAll sts
  | [] => rfl
  | st :: sts => by
    rw [Statement.regroupAll, Statement.refsAll, Statement.refsAll, Statement.refs_regroup h st,
      Statement.refsAll_regroupAll h sts]

theorem Statement.refsOfSections_regroupSections (h : KeepsStatements group) :
    ∀ sections : List (List Statement),
      Statement.refsOfSections (Statement.regroupSections group sections) =
        Statement.refsOfSections sections
  | [] => rfl
  | sts :: rest => by
    rw [Statement.regroupSections, Statement.refsOfSections, Statement.refsOfSections,
      Statement.refsAll_regroupAll h sts, Statement.refsOfSections_regroupSections h rest]

theorem Method.refs_regroup (h : KeepsStatements group) : ∀ m : Method,
    (m.regroup group).refs = m.refs
  | ⟨name, annotations, modifiers, returns, params, sections⟩ => by
    rw [Method.regroup, Method.refs, Method.refs, Statement.refsOfSections_eq_flatMap, h,
      ← Statement.refsOfSections_eq_flatMap, Statement.refsOfSections_regroupSections h sections]

theorem Method.refsAll_regroupAll (h : KeepsStatements group) : ∀ ms : List Method,
    Method.refsAll (Method.regroupAll group ms) = Method.refsAll ms
  | [] => rfl
  | m :: ms => by
    rw [Method.regroupAll, Method.refsAll, Method.refsAll, Method.refs_regroup h m,
      Method.refsAll_regroupAll h ms]

end

/-- So the claims on simple names, and with them the imports, stay the same in the whole file. -/
theorem Names.ofFile_regroup (h : KeepsStatements group) (f : SourceFile) :
    Names.ofFile (f.regroup group) = Names.ofFile f := by
  have hrefs : (f.regroup group).refs = f.refs :=
    congrArg (f.superclass.toList ++ ·) (Method.refsAll_regroupAll h f.methods)
  rw [Names.ofFile, Names.ofFile, hrefs]
  rfl

end Refs

theorem Expr.isCast_regroup (group : List (List Statement) → List (List Statement)) (e : Expr) :
    (e.regroup group).isCast = e.isCast := by
  cases e with
  | call target method args => cases target <;> rfl
  | _ => rfl

theorem Expr.regroupAll_eq_map (group : List (List Statement) → List (List Statement))
    (es : List Expr) : Expr.regroupAll group es = es.map (Expr.regroup group) := by
  induction es with
  | nil => rfl
  | cons e es ih => rw [Expr.regroupAll, ih, List.map_cons]

theorem Statement.regroupAll_eq_map (group : List (List Statement) → List (List Statement))
    (sts : List Statement) :
    Statement.regroupAll group sts = sts.map (Statement.regroup group) := by
  induction sts with
  | nil => rfl
  | cons st sts ih => rw [Statement.regroupAll, ih, List.map_cons]

theorem Method.regroupAll_eq_map (group : List (List Statement) → List (List Statement))
    (ms : List Method) : Method.regroupAll group ms = ms.map (Method.regroup group) := by
  induction ms with
  | nil => rfl
  | cons m ms ih => rw [Method.regroupAll, ih, List.map_cons]

theorem Statement.isEmpty_regroupAll (group : List (List Statement) → List (List Statement))
    (sts : List Statement) : (Statement.regroupAll group sts).isEmpty = sts.isEmpty := by
  cases sts <;> rfl

theorem dropEmptySections_regroupSections (group : List (List Statement) → List (List Statement))
    (sections : List (List Statement)) :
    dropEmptySections (Statement.regroupSections group sections) =
      (dropEmptySections sections).map fun sts => sts.map (Statement.regroup group) := by
  induction sections with
  | nil => rfl
  | cons sts rest ih =>
    rw [dropEmptySections, dropEmptySections] at ih
    rw [Statement.regroupSections, dropEmptySections, dropEmptySections, List.filter_cons,
      List.filter_cons, ih, Statement.isEmpty_regroupAll, Statement.regroupAll_eq_map]
    split <;> rfl

/-- A way to compare texts that carries over to texts put together of others. -/
structure IsTextCongruence (same : String → String → Prop) : Prop where
  refl : ∀ x, same x x
  trans : ∀ {x y z}, same x y → same y z → same x z
  append : ∀ {x y x' y'}, same x y → same x' y' → same (x ++ x') (y ++ y')

theorem IsTextCongruence.intercalate {same : String → String → Prop} (h : IsTextCongruence same)
    (sep : String) {xs ys : List String} (hxs : List.Forall₂ same xs ys) :
    same (sep.intercalate xs) (sep.intercalate ys) := by
  cases hxs with
  | nil => exact h.refl _
  | cons hx hrest =>
    rename_i x y xs ys
    induction hrest generalizing x y with
    | nil => simpa using hx
    | cons hx' hrest ih =>
      rw [String.intercalate_cons_cons, String.intercalate_cons_cons]
      exact h.append (h.append hx (h.refl sep)) (ih hx')

section Print

variable {same : String → String → Prop} {s : Style}
  {group : List (List Statement) → List (List Statement)}

def Style.body (s : Style) (level : Nat) (sections : List (List Statement)) : String :=
  "\n".intercalate (Statement.printSections s level sections)

/-- Setting sections anew leaves the printed bodies of methods the same. -/
structure KeepsBodies (same : String → String → Prop) (s : Style)
    (group : List (List Statement) → List (List Statement)) : Prop
    extends IsTextCongruence same where
  body : ∀ level sections, same (s.body level (group sections)) (s.body level sections)

mutual

/-- If the bodies of methods are the same when their sections are set anew, so are expressions with
such methods anywhere in them. -/
theorem Expr.print_regroup (h : KeepsBodies same s group) (level : Nat) : ∀ e : Expr,
    same ((e.regroup group).print s level) (e.print s level)
  | .ident _ | .int _ | .super => h.refl _
  | .call none method args => by
    rw [Expr.regroup, Expr.print, Expr.print]
    have hargs := h.intercalate ", " (Expr.printAll_regroupAll h level args)
    exact h.append (h.append (h.refl _) hargs) (h.refl _)
  | .call (some target) method args => by
    rw [Expr.regroup, Expr.print, Expr.print, Expr.isCast_regroup]
    have hargs := h.intercalate ", " (Expr.printAll_regroupAll h level args)
    have htarget := Expr.print_regroup h level target
    refine h.append (h.append (h.append (h.append (h.append ?_ (h.refl _))
      (h.refl _)) (h.refl _)) hargs) (h.refl _)
    split
    · exact h.append (h.append (h.refl _) htarget) (h.refl _)
    · exact htarget
  | .cast type value => by
    rw [Expr.regroup, Expr.print, Expr.print]
    exact h.append (h.refl _) (Expr.print_regroup h level value)
  | .new type methods => by
    rw [Expr.regroup, Expr.print, Expr.print]
    have hmethods := h.intercalate "\n" (Method.printAll_regroupAll h (level + 1) methods)
    exact h.append (h.append (h.append (h.refl _) hmethods) (h.refl _))
      (h.refl _)

theorem Expr.printAll_regroupAll (h : KeepsBodies same s group) (level : Nat) : ∀ es : List Expr,
    List.Forall₂ same (Expr.printAll s level (Expr.regroupAll group es)) (Expr.printAll s level es)
  | [] => .nil
  | e :: es => .cons (Expr.print_regroup h level e) (Expr.printAll_regroupAll h level es)

theorem Statement.print_regroup (h : KeepsBodies same s group) (level : Nat) : ∀ st : Statement,
    same ((st.regroup group).print s level) (st.print s level)
  | .expr value | .assign _ value | .declare _ _ value => by
    rw [Statement.regroup, Statement.print, Statement.print]
    exact h.append (h.append (h.refl _) (Expr.print_regroup h level value)) (h.refl _)

theorem Statement.printAll_regroupAll (h : KeepsBodies same s group) (level : Nat) :
    ∀ sts : List Statement, same (Statement.printAll s level (Statement.regroupAll group sts))
      (Statement.printAll s level sts)
  | [] => h.refl _
  | st :: sts => by
    rw [Statement.regroupAll, Statement.printAll, Statement.printAll]
    exact h.append (Statement.print_regroup h level st) (Statement.printAll_regroupAll h level sts)

theorem Statement.printSections_regroupSections (h : KeepsBodies same s group) (level : Nat) :
    ∀ sections : List (List Statement),
      List.Forall₂ same (Statement.printSections s level (Statement.regroupSections group sections))
        (Statement.printSections s level sections)
  | [] => .nil
  | sts :: rest => by
    rw [Statement.regroupSections, Statement.printSections, Statement.printSections,
      Statement.isEmpty_regroupAll]
    split
    · exact Statement.printSections_regroupSections h level rest
    · exact .cons (Statement.printAll_regroupAll h level sts)
        (Statement.printSections_regroupSections h level rest)

theorem Method.print_regroup (h : KeepsBodies same s group) (level : Nat) : ∀ m : Method,
    same ((m.regroup group).print s level) (m.print s level)
  | ⟨name, annotations, modifiers, returns, params, sections⟩ => by
    rw [Method.regroup, Method.print, Method.print]
    have hinner := h.intercalate "\n"
      (Statement.printSections_regroupSections h (level + 1) sections)
    exact h.append (h.append (h.refl _) (h.trans (h.body _ _) hinner))
      (h.refl _)

theorem Method.printAll_regroupAll (h : KeepsBodies same s group) (level : Nat) :
    ∀ ms : List Method, List.Forall₂ same (Method.printAll s level (Method.regroupAll group ms))
      (Method.printAll s level ms)
  | [] => .nil
  | m :: ms => .cons (Method.print_regroup h level m) (Method.printAll_regroupAll h level ms)

end

end Print

theorem isTextCongruence_eq : IsTextCongruence Eq where
  refl _ := rfl
  trans := Eq.trans
  append := by
    rintro x y x' y' rfl rfl
    rfl

theorem isTextCongruence_sameLines : IsTextCongruence SameLines where
  refl := SameLines.refl
  trans := SameLines.trans
  append := SameLines.append

section Grouping

variable (s : Style) (level : Nat)

theorem keepsStatements_dropEmptySections : KeepsStatements dropEmptySections := by
  intro sections
  induction sections with
  | nil => rfl
  | cons sts rest ih =>
    rw [dropEmptySections, List.filter_cons]
    cases sts with
    | nil => exact ih
    | cons st sts => exact congrArg ((st :: sts) ++ ·) ih

theorem keepsStatements_joinSections : KeepsStatements joinSections := by
  intro sections
  rw [joinSections, List.flatten_singleton]

theorem Expr.printAll_eq_map (es : List Expr) :
    Expr.printAll s level es = es.map (Expr.print s level) := by
  induction es with
  | nil => rfl
  | cons e es ih => rw [Expr.printAll, ih, List.map_cons]

theorem Method.printAll_eq_map (ms : List Method) :
    Method.printAll s level ms = ms.map (Method.print s level) := by
  induction ms with
  | nil => rfl
  | cons m ms ih => rw [Method.printAll, ih, List.map_cons]

/-- The sections with statements, each with its text. -/
theorem printSections_eq (sections : List (List Statement)) :
    Statement.printSections s level sections =
      (dropEmptySections sections).map (Statement.printAll s level) := by
  induction sections with
  | nil => rfl
  | cons sts rest ih =>
    rw [Statement.printSections, dropEmptySections, List.filter_cons, ih]
    cases sts <;> rfl

/-- Empty sections leave no trace. -/
theorem keepsBodies_dropEmptySections : KeepsBodies Eq s dropEmptySections where
  toIsTextCongruence := isTextCongruence_eq
  body level sections := by
    rw [Style.body, Style.body, printSections_eq, printSections_eq, dropEmptySections,
      dropEmptySections, List.filter_filter]
    simp only [Bool.and_self]

theorem printAll_append (sts sts' : List Statement) :
    Statement.printAll s level (sts ++ sts') =
      Statement.printAll s level sts ++ Statement.printAll s level sts' := by
  induction sts with
  | nil => simp [Statement.printAll]
  | cons st sts ih => rw [List.cons_append, Statement.printAll, Statement.printAll, ih,
      String.append_assoc]

theorem getLast?_print (st : Statement) : (st.print s level).toList.getLast? = some '\n' := by
  have hend : ";\n".toList = [';'] ++ ['\n'] := rfl
  cases st <;>
    rw [Statement.print, String.toList_append, hend, ← List.append_assoc, List.getLast?_concat]

theorem getLast?_printAll {sts : List Statement} (h : sts ≠ []) :
    (Statement.printAll s level sts).toList.getLast? = some '\n' := by
  induction sts with
  | nil => exact absurd rfl h
  | cons st sts ih =>
    rw [Statement.printAll, String.toList_append, List.getLast?_append]
    cases sts with
    | nil => simpa [Statement.printAll] using getLast?_print s level st
    | cons st' sts => rw [ih (List.cons_ne_nil _ _)]; rfl

/-- The statements of all sections, one after the other, are the body of the method but for the
empty lines between the sections. -/
theorem sameLines_body (sections : List (List Statement)) :
    SameLines (Statement.printAll s level sections.flatten) (s.body level sections) := by
  induction sections with
  | nil => exact SameLines.refl _
  | cons sts rest ih =>
    rw [List.flatten_cons, printAll_append]
    rw [Style.body, Statement.printSections]
    cases sts with
    | nil => simpa [Statement.printAll, Style.body] using ih
    | cons st sts =>
      rw [List.isEmpty_cons, if_neg Bool.false_ne_true]
      have hend := SameLines.lineEnd (getLast?_printAll s level (List.cons_ne_nil st sts))
      by_cases hrest : Statement.printSections s level rest = []
      · rw [Style.body, hrest, String.intercalate_nil] at ih
        rw [hrest, String.intercalate_singleton]
        simpa using (SameLines.refl (Statement.printAll s level (st :: sts))).append ih
      · rw [String.intercalate_cons_of_ne_nil hrest]
        exact hend.append ih

/-- Nor does the grouping of statements leave any but empty lines. -/
theorem keepsBodies_joinSections : KeepsBodies SameLines s joinSections where
  toIsTextCongruence := isTextCongruence_sameLines
  body level sections := by
    have hone : s.body level (joinSections sections) =
        Statement.printAll s level sections.flatten := by
      rw [Style.body, joinSections, Statement.printSections]
      by_cases h : sections.flatten = []
      · rw [h]
        rfl
      · rw [if_neg (by simpa using h), Statement.printSections, String.intercalate_singleton]
    rw [hone]
    exact sameLines_body s level sections

end Grouping

namespace SourceFile

/-- What setting the sections of a file anew does to its text. -/
theorem print_regroup {same : String → String → Prop}
    {group : List (List Statement) → List (List Statement)} (hstatements : KeepsStatements group)
    (hbodies : ∀ s, KeepsBodies same s group) (indent : String) (f : SourceFile) :
    same ((f.regroup group).print indent) (f.print indent) := by
  have h := hbodies ⟨Names.ofFile f, indent⟩
  rw [print, print, Names.ofFile_regroup hstatements]
  have hmethods := h.intercalate "\n" (Method.printAll_regroupAll h 1 f.methods)
  exact h.append (h.append (h.refl _) hmethods) (h.refl _)

/-- Files whose methods, at any depth, have the same statements in the same order are printed alike
but for empty lines, and to the letter alike if only sections without statements tell them apart. -/
theorem print_eq_of_same_statements (indent : String) (f g : SourceFile) :
    (f.ungrouped = g.ungrouped →
      withoutEmptyLines (f.print indent) = withoutEmptyLines (g.print indent)) ∧
    (f.compact = g.compact → f.print indent = g.print indent) := by
  constructor
  · intro h
    have hprint (f : SourceFile) : SameLines (f.ungrouped.print indent) (f.print indent) :=
      f.print_regroup keepsStatements_joinSections keepsBodies_joinSections indent
    rw [← (hprint f).withoutEmptyLines_eq, h, (hprint g).withoutEmptyLines_eq]
  · intro h
    have hprint (f : SourceFile) : f.compact.print indent = f.print indent :=
      f.print_regroup keepsStatements_dropEmptySections keepsBodies_dropEmptySections indent
    rw [← hprint f, h, hprint g]

/-- A listener and the method around it, their three statements grouped in different ways. -/
theorem print_eq_of_same_statements_listener :
    let call (name : String) : Statement := .expr (.call none name [])
    let listener (sections : List (List Statement)) : Statement :=
      .expr (.new ⟨"b", "Listener"⟩ [⟨"onClick", [], [], .void, [], sections⟩])
    let file (sections : List (List Statement)) : SourceFile :=
      ⟨"a", "Main_", [], none, [⟨"run", [], [], .void, [], sections⟩]⟩
    let f := file [[listener [[call "x"], [call "y"]], call "z"]]
    let g := file [[listener [[call "x", call "y"]]], [call "z"]]
    let g' := file [[], [listener [[call "x", call "y"], []]], [call "z"]]
    (f.ungrouped = g.ungrouped ∧ f.print "\t" ≠ g.print "\t" ∧
      withoutEmptyLines (f.print "\t") = withoutEmptyLines (g.print "\t")) ∧
    g.compact = g'.compact ∧ g.print "\t" = g'.print "\t" := by
  intro call listener file f g g'
  have hungrouped : f.ungrouped = g.ungrouped := rfl
  have hcompact : g.compact = g'.compact := rfl
  exact ⟨⟨hungrouped, by decide +kernel, (print_eq_of_same_statements "\t" f g).1 hungrouped⟩,
    hcompact, (print_eq_of_same_statements "\t" g g').2 hcompact⟩

end SourceFile

end ViewWiring.Code
