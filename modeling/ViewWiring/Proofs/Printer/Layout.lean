import ViewWiring.Proofs.Names.Claims
import ViewWiring.Proofs.Printer.Spelling

namespace ViewWiring.Code

theorem StartsExpr.startsLine {c : Char} (h : StartsExpr c) : StartsLine c := by
  refine ⟨?_, ?_, ?_, ?_⟩ <;>
  · rintro rfl
    exact absurd h (by decide)

theorem isFlat_of_forall_mem {text : String}
    (h : ∀ c ∈ text.toList, isIdentifierPart c = true ∨ c = '.' ∨ c = '-') : IsFlat text := by
  intro c hc
  refine ⟨?_, ?_, ?_⟩ <;>
  · rintro rfl
    have hbad := h _ hc
    revert hbad
    decide

theorem isFlat_of_isIdentifier {name : String} (h : isIdentifier name = true) : IsFlat name :=
  isFlat_of_forall_mem fun _ hc => .inl ((isIdentifier_iff.mp h).1.isIdentifierPart_of_mem hc)

theorem isFlat_toString (n : Int) : IsFlat (toString n) := by
  obtain ⟨c, cs, hn, hc, hcs⟩ := exists_toString_eq_cons n
  have hdigit {d : Char} (hd : d.isDigit = true) : isIdentifierPart d = true := by
    rw [isIdentifierPart, hd, Bool.or_true]
  apply isFlat_of_forall_mem
  rw [hn, List.forall_mem_cons]
  exact ⟨hc.imp hdigit .inr, fun d hd => .inl (hdigit (hcs d hd))⟩

theorem isFlat_word (m : Modifier) : IsFlat m.word := by cases m <;> decide

/-- A class whose printed name can stand in a line, and at its start. -/
def Style.Fits (s : Style) (r : ClassRef) : Prop :=
  Begins StartsLine (s.names.name r).toList ∧ IsFlat (s.names.name r)

section Lays

variable (s : Style) (level : Nat)

theorem Style.toList_pad : (s.pad level).toList = copies s.indent.toList level := by
  rw [Style.pad, String.toList_join, copies, List.flatMap, List.map_replicate]

/-- A line of its own, given the text between its indent and its end. -/
theorem Style.lays_line {text : String} (hstart : Begins StartsLine text.toList)
    (h : Lays s.indent.toList (level, true) text.toList (level, true)) :
    Lays s.indent.toList (level, false) (s.pad level ++ text ++ "\n").toList (level, false) := by
  simp only [String.toList_append, s.toList_pad, List.append_assoc]
  exact .start (hstart.append _) (h.append (.lineEnd (.done _)))

theorem Style.lays_annotations {annotations : List ClassRef} (h : ∀ r ∈ annotations, s.Fits r) :
    Lays s.indent.toList (level, false)
      (String.join (annotations.map (s.annotationLine level))).toList (level, false) := by
  induction annotations with
  | nil => exact .done _
  | cons r rs ih =>
    obtain ⟨hr, hrs⟩ := List.forall_mem_cons.mp h
    have hflat : IsFlat ("@" ++ s.names.name r) := IsFlat.append (by decide) hr.2
    have hstart : Begins StartsLine ("@" ++ s.names.name r).toList := by
      rw [String.toList_append]
      exact ⟨'@', _, rfl, by decide⟩
    have hline := s.lays_line level hstart (.flat hflat)
    rw [← String.append_assoc] at hline
    rw [List.map_cons, String.join_cons, String.toList_append]
    exact hline.append (ih hrs)

theorem Style.isFlat_words (modifiers : List Modifier) {returns : ResultType}
    (h : ∀ r ∈ returns.refs, s.Fits r) :
    IsFlat (" ".intercalate (modifiers.map Modifier.word ++ [s.result returns])) := by
  have hresult : IsFlat (s.result returns) := by
    cases returns with
    | void =>
      rw [result]
      decide
    | ofClass type => exact (h type List.mem_cons_self).2
  apply IsFlat.intercalate (by decide)
  rw [List.forall_mem_append, List.forall_mem_map]
  exact ⟨fun m _ => isFlat_word m, List.forall_mem_singleton.mpr hresult⟩

/-- The lines before the body of a method open one brace. -/
theorem Style.lays_methodHead {name : String} {annotations : List ClassRef}
    (modifiers : List Modifier) {returns : ResultType} {params : List Parameter}
    (hname : isIdentifier name = true) (hannotations : ∀ r ∈ annotations, s.Fits r)
    (hreturns : ∀ r ∈ returns.refs, s.Fits r)
    (hparams : ∀ p ∈ params, isIdentifier p.name = true ∧ s.Fits p.type) :
    Lays s.indent.toList (level, false)
      (s.methodHead level name annotations modifiers returns params).toList (level + 1, false) := by
  let signature := " ".intercalate (modifiers.map Modifier.word ++ [s.result returns]) ++ " " ++
    name ++ "(" ++ ", ".intercalate (params.map s.parameter) ++ ") "
  have hhead : s.methodHead level name annotations modifiers returns params =
      String.join (annotations.map (s.annotationLine level)) ++
        (s.pad level ++ (signature ++ "\x7b\n")) := by
    have hend : ") \x7b\n" = ") " ++ "\x7b\n" := rfl
    simp only [methodHead, signature, hend, String.append_assoc]
  have hstart := Style.begins_words (fun _ hc => StartsExpr.startsLine hc)
    (fun r hr => (hreturns r hr).1) modifiers
  have hwords := s.isFlat_words modifiers hreturns
  have hlist : IsFlat (", ".intercalate (params.map s.parameter)) := by
    apply IsFlat.intercalate (by decide)
    rw [List.forall_mem_map]
    intro p hp
    obtain ⟨hpname, hptype⟩ := hparams p hp
    exact (hptype.2.append (by decide)).append (isFlat_of_isIdentifier hpname)
  have hflat : IsFlat signature :=
    ((((hwords.append (by decide)).append (isFlat_of_isIdentifier hname)).append
      (by decide)).append hlist).append (by decide)
  have hbegins : Begins StartsLine (signature ++ "\x7b\n").toList := by
    simp only [signature, String.toList_append, List.append_assoc]
    exact hstart.append _
  have hbrace : Lays s.indent.toList (level, true) "\x7b\n".toList (level + 1, false) :=
    .opening (.lineEnd (.done _))
  rw [hhead, String.toList_append, String.toList_append, s.toList_pad]
  refine (s.lays_annotations level hannotations).append (.start hbegins ?_)
  rw [String.toList_append]
  exact (Lays.flat hflat).append hbrace

/-- A brace that closes stands one level further out than the lines before it. -/
theorem Style.lays_close {place : Nat × Bool} {text : List Char}
    (h : Lays s.indent.toList (level, true) text place) :
    Lays s.indent.toList (level + 1, false) ((s.pad level).toList ++ '}' :: text) place := by
  have hclose := Lays.lineStart (c := '}') (by decide) (by decide) (by decide) (Lays.closing h)
  rwa [if_pos rfl, Nat.add_sub_cancel, ← s.toList_pad] at hclose

theorem Style.lays_call {method : String} {args : List String}
    (hmethod : isIdentifier method = true)
    (hargs : ∀ t ∈ args, Lays s.indent.toList (level, true) t.toList (level, true)) :
    Lays s.indent.toList (level, true) (method ++ "(" ++ ", ".intercalate args ++ ")").toList
      (level, true) := by
  have hopen : IsFlat (method ++ "(") := (isFlat_of_isIdentifier hmethod).append (by decide)
  have hcomma : Lays s.indent.toList (level, true) ", ".toList (level, true) := .flat (by decide)
  rw [String.toList_append, String.toList_append]
  exact ((Lays.flat hopen).append (.intercalate hcomma hargs)).append (.flat (by decide))

theorem Style.isFlat_head {st : Statement} (h : Spelled s.Fits st.names st.refs) :
    IsFlat (st.head s) := by
  cases st with
  | expr value => exact nofun
  | assign target value =>
    exact (isFlat_of_isIdentifier (spelled_name.mp h).1).append (by decide)
  | declare type name value =>
    obtain ⟨hname, htyped⟩ := spelled_name.mp h
    have htype := (spelled_class.mp htyped).1.2
    exact ((htype.append (by decide)).append (isFlat_of_isIdentifier hname)).append (by decide)

/-- A statement is a line, apart from the lines that its value brings along. -/
theorem Style.lays_statement {st : Statement} (h : Spelled s.Fits st.names st.refs)
    (hvalue : Lays s.indent.toList (level, true) (st.value.print s level).toList (level, true)) :
    Lays s.indent.toList (level, false) (st.print s level).toList (level, false) := by
  have hstart := Statement.begins_code (fun _ hc => StartsExpr.startsLine hc) (fun _ hr => hr.1)
    level h
  have hcode : Lays s.indent.toList (level, true)
      (st.head s ++ st.value.print s level ++ ";").toList (level, true) := by
    rw [String.toList_append, String.toList_append]
    exact ((Lays.flat (s.isFlat_head h)).append hvalue).append (.flat (by decide))
  have hline := s.lays_line level (by rw [String.toList_append]; exact hstart.append _) hcode
  have hend : ";\n" = ";" ++ "\n" := rfl
  rw [Statement.print_eq, hend]
  simpa only [String.append_assoc] using hline

end Lays

section Print

variable (s : Style)

mutual

/-- Wherever in a line an expression begins, it ends there at the same depth, and the lines in
between are indented by their depth. -/
theorem Expr.lays_print (level : Nat) : ∀ e : Expr, Spelled s.Fits e.names e.refs →
    Lays s.indent.toList (level, true) (e.print s level).toList (level, true)
  | .ident name, h => .flat (isFlat_of_isIdentifier (h.names name List.mem_cons_self))
  | .int value, _ => .flat (isFlat_toString value)
  | .super, _ => .flat (by rw [Expr.print]; decide)
  | .call none method args, h => by
    obtain ⟨hmethod, hargs⟩ := spelled_name.mp h
    rw [Expr.print]
    exact s.lays_call level hmethod (Expr.lays_printAll level args hargs)
  | .call (some target) method args, h => by
    obtain ⟨htarget, hcall⟩ := spelled_append.mp h
    obtain ⟨hmethod, hargs⟩ := spelled_name.mp hcall
    have hinner := Expr.lays_print level target htarget
    have hoperand : Lays s.indent.toList (level, true)
        (if target.isCast then "(" ++ target.print s level ++ ")"
          else target.print s level).toList (level, true) := by
      split
      · rw [String.toList_append, String.toList_append]
        exact ((Lays.flat (by decide)).append hinner).append (.flat (by decide))
      · exact hinner
    have hrest := s.lays_call level hmethod (Expr.lays_printAll level args hargs)
    have hdot : Lays s.indent.toList (level, true) ".".toList (level, true) := .flat (by decide)
    have hlink := (hoperand.append hdot).append hrest
    simpa only [Expr.print, ← String.toList_append, String.append_assoc] using hlink
  | .cast type value, h => by
    obtain ⟨htype, hvalue⟩ := spelled_class.mp h
    have hcast : IsFlat ("(" ++ s.names.name type ++ ") ") :=
      (IsFlat.append (by decide) htype.2).append (by decide)
    rw [Expr.print, String.toList_append]
    exact (Lays.flat hcast).append (Expr.lays_print level value hvalue)
  | .new type methods, h => by
    obtain ⟨htype, hmethods⟩ := spelled_class.mp h
    have hnew : IsFlat ("new " ++ s.names.name type ++ "() ") :=
      (IsFlat.append (by decide) htype.2).append (by decide)
    have hopen : Lays s.indent.toList (level, true) "\x7b\n".toList (level + 1, false) :=
      .opening (.lineEnd (.done _))
    have hbody : Lays s.indent.toList (level + 1, false)
        ("\n".intercalate (Method.printAll s (level + 1) methods)).toList (level + 1, false) :=
      .intercalate (.lineEnd (.done _)) (Method.lays_printAll (level + 1) methods hmethods)
    have hclose : Lays s.indent.toList (level + 1, false) (s.pad level ++ "\x7d").toList
        (level, true) := by
      rw [String.toList_append]
      exact s.lays_close level (.done _)
    have hend : "() \x7b\n" = "() " ++ "\x7b\n" := rfl
    have hlines := (((Lays.flat hnew).append hopen).append hbody).append hclose
    rw [Expr.print, hend]
    simpa only [String.toList_append, List.append_assoc] using hlines

theorem Expr.lays_printAll (level : Nat) : ∀ es : List Expr,
    Spelled s.Fits (Expr.namesAll es) (Expr.refsAll es) →
    ∀ t ∈ Expr.printAll s level es, Lays s.indent.toList (level, true) t.toList (level, true)
  | [], _ => nofun
  | e :: es, h => by
    obtain ⟨hfirst, hrest⟩ := spelled_append.mp h
    exact List.forall_mem_cons.mpr
      ⟨Expr.lays_print level e hfirst, Expr.lays_printAll level es hrest⟩

theorem Statement.lays_print (level : Nat) : ∀ st : Statement, Spelled s.Fits st.names st.refs →
    Lays s.indent.toList (level, false) (st.print s level).toList (level, false)
  | .expr value, h | .assign _ value, h | .declare _ _ value, h =>
    s.lays_statement level h (Expr.lays_print level value (Statement.spelled_value h))

theorem Statement.lays_printAll (level : Nat) : ∀ sts : List Statement,
    Spelled s.Fits (Statement.namesAll sts) (Statement.refsAll sts) →
    Lays s.indent.toList (level, false) (Statement.printAll s level sts).toList (level, false)
  | [], _ => .done _
  | st :: sts, h => by
    obtain ⟨hfirst, hrest⟩ := spelled_append.mp h
    rw [Statement.printAll, String.toList_append]
    exact (Statement.lays_print level st hfirst).append (Statement.lays_printAll level sts hrest)

theorem Statement.lays_printSections (level : Nat) : ∀ sections : List (List Statement),
    Spelled s.Fits (Statement.namesOfSections sections) (Statement.refsOfSections sections) →
    ∀ t ∈ Statement.printSections s level sections,
      Lays s.indent.toList (level, false) t.toList (level, false)
  | [], _ => nofun
  | sts :: rest, h => by
    obtain ⟨hfirst, hrest⟩ := spelled_append.mp h
    have hlater := Statement.lays_printSections level rest hrest
    rw [Statement.printSections]
    split
    · exact hlater
    · exact List.forall_mem_cons.mpr ⟨Statement.lays_printAll level sts hfirst, hlater⟩

theorem Method.lays_print (level : Nat) : ∀ m : Method, Spelled s.Fits m.names m.refs →
    Lays s.indent.toList (level, false) (m.print s level).toList (level, false)
  | ⟨name, annotations, modifiers, returns, params, sections⟩, h => by
    obtain ⟨⟨hname, hannotations, hreturns, hparams⟩, hsections⟩ := Method.spelled_iff.mp h
    have hhead := s.lays_methodHead level modifiers hname hannotations hreturns hparams
    have hbody : Lays s.indent.toList (level + 1, false)
        ("\n".intercalate (Statement.printSections s (level + 1) sections)).toList
        (level + 1, false) :=
      .intercalate (.lineEnd (.done _))
        (Statement.lays_printSections (level + 1) sections hsections)
    have hfoot := s.lays_close level (.lineEnd (.done _))
    rw [Method.print, Style.methodFoot, String.toList_append, String.toList_append,
      String.toList_append]
    exact (hhead.append hbody).append hfoot

theorem Method.lays_printAll (level : Nat) : ∀ ms : List Method,
    Spelled s.Fits (Method.namesAll ms) (Method.refsAll ms) →
    ∀ t ∈ Method.printAll s level ms, Lays s.indent.toList (level, false) t.toList (level, false)
  | [], _ => nofun
  | m :: ms, h => by
    obtain ⟨hfirst, hrest⟩ := spelled_append.mp h
    exact List.forall_mem_cons.mpr
      ⟨Method.lays_print level m hfirst, Method.lays_printAll level ms hrest⟩

end

end Print

theorem ClassRef.isFlat_qualify {r : ClassRef} (hpackage : IsFlat r.package) {name : String}
    (hname : IsFlat name) : IsFlat (r.qualify name) := by
  rw [qualify]
  split
  · exact hname
  · exact (hpackage.append (by decide)).append hname

theorem isFlat_of_isQualifiedName {name : String} (h : isQualifiedName name = true) :
    IsFlat name := by
  obtain ⟨c, cs, hname, hc, hcs⟩ := exists_of_isQualifiedName h
  apply isFlat_of_forall_mem
  rw [hname, List.forall_mem_cons]
  exact ⟨.inl (by rw [isIdentifierPart, hc, Bool.true_or]), fun d hd => (hcs d hd).imp_right .inl⟩

/-- A package that fits into a line and does not begin with a blank; it need not be a name
otherwise. -/
def ClassRef.HasPlainPackage (r : ClassRef) : Prop :=
  IsFlat r.package ∧ r.package.toList.head? ∉ [some ' ', some '\t']

instance : DecidablePred ClassRef.HasPlainPackage := fun r =>
  inferInstanceAs (Decidable (IsFlat r.package ∧ r.package.toList.head? ∉ [some ' ', some '\t']))

section Packages

variable {r : ClassRef}

theorem ClassRef.HasPlainPackage.begins (h : r.HasPlainPackage) (hne : r.package ≠ "") :
    Begins StartsLine r.package.toList := by
  obtain ⟨hflat, hblank⟩ := h
  obtain ⟨c, cs, hcs⟩ := List.exists_cons_of_ne_nil (l := r.package.toList) (by simpa using hne)
  obtain ⟨-, hclose, hend⟩ := hflat c (hcs ▸ List.mem_cons_self)
  simp only [hcs, List.head?_cons, List.mem_cons, Option.some.injEq, not_or] at hblank
  exact ⟨c, cs, hcs, hblank.1, hblank.2.1, hend, hclose⟩

/-- Printed with its package or without, a class fits into a line. -/
theorem Style.fits_of_isQualifiedName (s : Style) (hname : isQualifiedName r.name = true)
    (hpackage : r.HasPlainPackage) : s.Fits r := by
  have hstart : Begins StartsLine r.name.toList :=
    (begins_of_isQualifiedName hname).imp fun _ hc => hc.startsLine
  have hflat : IsFlat r.name := isFlat_of_isQualifiedName hname
  cases hresolves : s.names.resolves r with
  | true =>
    rw [Fits, Names.name_of_resolves hresolves]
    exact ⟨hstart, hflat⟩
  | false =>
    rw [Fits, Names.name_of_not_resolves hresolves]
    refine ⟨?_, ClassRef.isFlat_qualify hpackage.1 hflat⟩
    rw [ClassRef.qualified, ClassRef.qualify]
    split
    · exact hstart
    · rename_i hne
      rw [String.isEmpty_iff] at hne
      rw [String.toList_append, String.toList_append]
      exact ((hpackage.begins hne).append _).append _

end Packages

namespace SourceFile

variable {f : SourceFile} {indent : List Char}

/-- Outside of all braces a line has no indent. -/
theorem lays_outermost {text : List Char} {place : Nat × Bool} (hstart : Begins StartsLine text)
    (h : Lays indent (0, true) text place) : Lays indent (0, false) text place := by
  have hline := Lays.start hstart h
  rwa [copies, List.replicate_zero, List.flatten_nil, List.nil_append] at hline

theorem lays_outerLine {text : String} (hstart : Begins StartsLine text.toList)
    (hflat : IsFlat text) : Lays indent (0, false) (text ++ "\n").toList (0, false) := by
  rw [String.toList_append]
  exact lays_outermost (hstart.append _) ((Lays.flat hflat).append (.lineEnd (.done _)))

theorem lays_packageLine (h : IsFlat f.package) :
    Lays indent (0, false) f.packageLine.toList (0, false) := by
  rw [packageLine]
  split
  · exact .done _
  · have hend : ";\n\n" = ";" ++ "\n" ++ "\n" := rfl
    have hflat : IsFlat ("package " ++ f.package ++ ";") :=
      (IsFlat.append (by decide) h).append (by decide)
    have hstart : Begins StartsLine ("package " ++ f.package ++ ";").toList := by
      simp only [String.toList_append, List.append_assoc]
      exact .append ⟨'p', "ackage ".toList, rfl, by decide⟩ _
    have hempty : Lays indent (0, false) "\n".toList (0, false) := .lineEnd (.done _)
    have hlines := (lays_outerLine hstart hflat).append hempty
    simpa only [hend, ← String.toList_append, String.append_assoc] using hlines

theorem lays_importBlock {imports : List String} (h : ∀ i ∈ imports, IsFlat i) :
    Lays indent (0, false) (importBlock imports).toList (0, false) := by
  have hlines : Lays indent (0, false)
      (String.join (imports.map fun i => "import " ++ i ++ ";\n")).toList (0, false) := by
    induction imports with
    | nil => exact .done _
    | cons i is ih =>
      obtain ⟨hi, his⟩ := List.forall_mem_cons.mp h
      have hend : ";\n" = ";" ++ "\n" := rfl
      have hflat : IsFlat ("import " ++ i ++ ";") :=
        (IsFlat.append (by decide) hi).append (by decide)
      have hstart : Begins StartsLine ("import " ++ i ++ ";").toList := by
        simp only [String.toList_append, List.append_assoc]
        exact .append ⟨'i', "mport ".toList, rfl, by decide⟩ _
      rw [List.map_cons, String.join_cons, String.toList_append, hend, ← String.append_assoc]
      exact (lays_outerLine hstart hflat).append (ih his)
  rw [importBlock]
  split
  · exact .done _
  · rw [String.toList_append]
    exact hlines.append (.lineEnd (.done _))

theorem isFlat_of_mem_imports (h : ∀ r ∈ f.refs, isQualifiedName r.name = true ∧ r.HasPlainPackage)
    {i : String} (hi : i ∈ (Names.ofFile f).imports) : IsFlat i := by
  obtain ⟨r, hr, -, -, rfl⟩ := mem_imports_iff.mp hi
  obtain ⟨hname, hpackage⟩ := h r hr
  refine ClassRef.isFlat_qualify hpackage.1 ?_
  intro c hc
  rw [ClassRef.topLevel, String.toList_ofList] at hc
  exact isFlat_of_isQualifiedName hname c (List.takeWhile_subset _ hc)

theorem classHead_eq (names : Names) : f.classHead names =
    String.join (f.modifiers.map fun m => m.word ++ " ") ++ "class " ++ f.className ++
      (f.superclass.elim "" fun r => " extends " ++ names.name r) ++ " " ++ "\x7b\n" := by
  have hend : " \x7b\n" = " " ++ "\x7b\n" := rfl
  cases h : f.superclass <;>
    simp only [classHead, h, hend, Option.elim, String.append_assoc]

/-- The line that opens the brace of the class. -/
theorem lays_classHead {names : Names} (hname : isIdentifier f.className = true)
    (hsuper : ∀ r ∈ f.superclass, IsFlat (names.name r)) :
    Lays indent (0, false) (f.classHead names).toList (1, false) := by
  let signature := String.join (f.modifiers.map fun m => m.word ++ " ") ++ "class " ++
    f.className ++ (f.superclass.elim "" fun r => " extends " ++ names.name r) ++ " "
  have hwords : IsFlat (String.join (f.modifiers.map fun m => m.word ++ " ")) := by
    induction f.modifiers with
    | nil => decide
    | cons m ms ih =>
      rw [List.map_cons, String.join_cons]
      exact ((isFlat_word m).append (by decide)).append ih
  have hextends : IsFlat (f.superclass.elim "" fun r => " extends " ++ names.name r) := by
    cases hr : f.superclass with
    | none =>
      rw [Option.elim_none]
      decide
    | some r => exact IsFlat.append (by decide) (hsuper r hr)
  have hflat : IsFlat signature :=
    (((hwords.append (by decide)).append (isFlat_of_isIdentifier hname)).append
      hextends).append (by decide)
  have hstart : Begins StartsLine (signature ++ "\x7b\n").toList := by
    simp only [signature, String.toList_append, List.append_assoc]
    cases f.modifiers with
    | nil => exact .append ⟨'c', "lass ".toList, rfl, by decide⟩ _
    | cons m ms =>
      simp only [List.map_cons, String.join_cons, String.toList_append, List.append_assoc]
      exact ((begins_word m).imp fun _ hc => hc.startsLine).append _
  have hline : Lays indent (0, true) (signature ++ "\x7b\n").toList (1, false) := by
    rw [String.toList_append]
    exact (Lays.flat hflat).append (.opening (.lineEnd (.done _)))
  rw [classHead_eq]
  exact lays_outermost hstart hline

/-- A file is laid out by its nesting: its braces are balanced, and each line is indented by as many
steps as braces are open before it. -/
theorem print_laidOut (indent : String) (f : SourceFile)
    (hindent : ∀ c ∈ indent.toList, c = ' ' ∨ c = '\t')
    (hnames : ∀ n ∈ f.names, isIdentifier n = true)
    (hrefs : ∀ r ∈ f.refs, isQualifiedName r.name = true ∧ r.HasPlainPackage)
    (hpackage : IsFlat f.package) :
    LaidOut indent.toList (f.print indent).toList := by
  let s : Style := ⟨Names.ofFile f, indent⟩
  have hfits : ∀ r ∈ f.refs, s.Fits r := fun r hr =>
    s.fits_of_isQualifiedName (hrefs r hr).1 (hrefs r hr).2
  obtain ⟨hsuper, hfits'⟩ := List.forall_mem_append.mp hfits
  obtain ⟨hclass, hnames'⟩ := List.forall_mem_cons.mp hnames
  have himports : Lays indent.toList (0, false) (importBlock (Names.ofFile f).imports).toList
      (0, false) :=
    lays_importBlock fun i hi => isFlat_of_mem_imports hrefs hi
  have hhead : Lays indent.toList (0, false) (f.classHead (Names.ofFile f)).toList (1, false) :=
    lays_classHead hclass fun r hr => (hsuper r (Option.mem_toList.mpr hr)).2
  have hbody : Lays indent.toList (1, false)
      ("\n".intercalate (Method.printAll s 1 f.methods)).toList (1, false) :=
    .intercalate (.lineEnd (.done _)) (Method.lays_printAll s 1 f.methods ⟨hnames', hfits'⟩)
  have hclose : Lays indent.toList (1, false) "\x7d\n".toList (0, false) :=
    s.lays_close 0 (.lineEnd (.done _))
  have hfile := ((((lays_packageLine hpackage).append himports).append hhead).append hbody).append
    hclose
  simp only [← String.toList_append] at hfile
  exact hfile.laidOut hindent ⟨_, String.toList_append⟩

/-- A listener that holds another one in the target of a call. -/
theorem print_laidOut_listeners :
    let listener (name : String) (value : Expr) : Expr :=
      .new ⟨"b", "Listener"⟩ [⟨name, [⟨"java.lang", "Override"⟩], [.public], .void,
        [⟨⟨"b", "View"⟩, "view"⟩], [[.expr value], [.assign "seen" (.int (-1))]]⟩]
    let inner := listener "onTouch" (.cast ⟨"b", "Button"⟩ (.ident "view"))
    let outer := listener "onClick" (.call (some inner) "add" [.super, inner])
    let f : SourceFile := ⟨"a", "Main_", [.public], some ⟨"a", "Main"⟩,
      [⟨"run", [], [], .void, [], [[.expr (.call none "listen" [outer])]]⟩]⟩
    (∀ c ∈ "\t".toList, c = ' ' ∨ c = '\t') ∧ (∀ n ∈ f.names, isIdentifier n = true) ∧
      (∀ r ∈ f.refs, isQualifiedName r.name = true ∧ r.HasPlainPackage) ∧ IsFlat f.package ∧
      LaidOut "\t".toList (f.print "\t").toList := by
  intro listener inner outer f
  have hindent : ∀ c ∈ "\t".toList, c = ' ' ∨ c = '\t' := by simp
  have hnames : ∀ n ∈ f.names, isIdentifier n = true := by decide +kernel
  have hrefs : ∀ r ∈ f.refs, isQualifiedName r.name = true ∧ r.HasPlainPackage := by decide +kernel
  have hpackage : IsFlat f.package := by decide +kernel
  exact ⟨hindent, hnames, hrefs, hpackage, print_laidOut "\t" f hindent hnames hrefs hpackage⟩

/-- The package of the file itself is printed as it stands, so a line end in it begins a line that
is not indented like the others. -/
theorem not_laidOut_broken_package :
    let f : SourceFile := ⟨"a\n b", "Main_", [], none, []⟩
    (∀ n ∈ f.names, isIdentifier n = true) ∧ f.refs = [] ∧
      ¬ LaidOut "\t".toList (f.print "\t").toList := by
  intro f
  refine ⟨by decide +kernel, rfl, ?_⟩
  intro h
  have hline : IsLine (f.print "\t").toList "package a\n".toList " b;".toList
      "\n\nclass Main_ \x7b\n\x7d\n".toList := by
    refine ⟨by decide +kernel, .inr ?_, .inr ?_, ?_⟩ <;> decide +kernel
  obtain ⟨c, rest, hsplit, hblank, -⟩ := h.indented _ _ _ hline (by decide +kernel)
  have hnone : copies "\t".toList
      (if c = '}' then "package a\n".toList.count '{' - "package a\n".toList.count '}' - 1
        else "package a\n".toList.count '{' - "package a\n".toList.count '}') = [] := by
    split <;> rfl
  rw [hnone, List.nil_append] at hsplit
  exact hblank (List.cons.inj hsplit).1.symm

end SourceFile

end ViewWiring.Code
