import ViewWiring.Proofs.Printer.Heads
import ViewWiring.Proofs.Printer.Statements

namespace ViewWiring.Code

def Method.IsReadable (s : Style) (known : ClassRef → Prop) (m : Method) : Prop :=
  ∀ (level : Nat) (m' : Method), Spelled known m.names m.refs → Spelled known m'.names m'.refs →
    ReadAlike Anything (m.print s level).toList (m'.print s level).toList
      (m.regroup dropEmptySections = m'.regroup dropEmptySections)

theorem Statement.toList_printAll (s : Style) (level : Nat) (sts : List Statement) :
    (Statement.printAll s level sts).toList = sts.flatMap fun st => (st.print s level).toList := by
  induction sts with
  | nil => rfl
  | cons st sts ih => rw [Statement.printAll, String.toList_append, ih, List.flatMap_cons]

section Blocks

variable {s : Style} {known : ClassRef → Prop} (hs : s.TellsApart known)

include hs

/-- Between braces stand parts with empty lines between them, each part indented by one step more
than the brace that closes. -/
theorem readAlike_block {α β : Type} {f : α → List Char} {g : α → β} {as bs : List α}
    (level : Nat) (hread : ∀ a ∈ as, ∀ b ∈ bs, ReadAlike
      (fun u => Begins (· = '\n') u ∨ Closes s.indent.toList level u) (f a) (f b) (g a = g b))
    (hopens : ∀ a ∈ as ++ bs, ∀ u, OpensLine s.indent.toList (level + 1) (f a ++ u)) :
    ReadAlike (Closes s.indent.toList level) (['\n'].intercalate (as.map f))
      (['\n'].intercalate (bs.map f)) (as.map g = bs.map g) := by
  apply ReadAlike.intercalate hread
  · exact fun u => .inl ⟨'\n', u, rfl, rfl⟩
  · exact fun _ hu => .inr hu
  · exact fun a ha u => (hopens a ha u).not_closes hs.blank
  · exact fun u hu => hu.not_lineEnd hs.blank ⟨'\n', u, rfl, rfl⟩

theorem readAlike_section {sts sts' : List Statement} (level : Nat)
    (hread : ∀ st ∈ sts, st.IsReadable s known)
    (h : ∀ st ∈ sts, Spelled known st.names st.refs)
    (h' : ∀ st ∈ sts', Spelled known st.names st.refs) :
    ReadAlike (fun u => Begins (· = '\n') u ∨ Closes s.indent.toList level u)
      (Statement.printAll s (level + 1) sts).toList (Statement.printAll s (level + 1) sts').toList
      (sts.map Statement.compact = sts'.map Statement.compact) := by
  rw [Statement.toList_printAll, Statement.toList_printAll]
  apply ReadAlike.flatMap_of_closed
  · exact fun st hst st' hst' => hread st hst (level + 1) st' (h st hst) (h' st' hst')
  · intro st hst u hstop
    have hspelled := (List.mem_append.mp hst).elim (h st) (h' st)
    have hopens := opensLine_statement hs hspelled (level + 1) u
    exact hstop.elim (hopens.not_lineEnd hs.blank) (hopens.not_closes hs.blank)

/-- The body of a method is read up to empty sections, which leave no trace. -/
theorem readAlike_body {sections sections' : List (List Statement)} (level : Nat)
    (hread : ∀ sts ∈ sections, ∀ st ∈ sts, st.IsReadable s known)
    (h : ∀ sts ∈ sections, ∀ st ∈ sts, Spelled known st.names st.refs)
    (h' : ∀ sts ∈ sections', ∀ st ∈ sts, Spelled known st.names st.refs) :
    ReadAlike (Closes s.indent.toList level) (s.body (level + 1) sections).toList
      (s.body (level + 1) sections').toList
      (dropEmptySections (Statement.regroupSections dropEmptySections sections) =
        dropEmptySections (Statement.regroupSections dropEmptySections sections')) := by
  have hmem {all : List (List Statement)} {sts : List Statement}
      (hsts : sts ∈ dropEmptySections all) : sts ∈ all ∧ sts ≠ [] := by
    simpa [dropEmptySections] using hsts
  have htext (all : List (List Statement)) : (s.body (level + 1) all).toList =
      ['\n'].intercalate ((dropEmptySections all).map fun sts =>
        (Statement.printAll s (level + 1) sts).toList) := by
    rw [Style.body, printSections_eq, String.toList_intercalate, List.map_map]
    rfl
  rw [htext, htext, dropEmptySections_regroupSections, dropEmptySections_regroupSections]
  apply readAlike_block hs level
  · exact fun sts hsts sts' hsts' => readAlike_section hs level (hread sts (hmem hsts).1)
      (h sts (hmem hsts).1) (h' sts' (hmem hsts').1)
  · intro sts hsts u
    have hfirst : sts ≠ [] ∧ ∀ st ∈ sts, Spelled known st.names st.refs := by
      rcases List.mem_append.mp hsts with hsts | hsts
      · exact ⟨(hmem hsts).2, h sts (hmem hsts).1⟩
      · exact ⟨(hmem hsts).2, h' sts (hmem hsts).1⟩
    obtain ⟨st, rest, rfl⟩ := List.exists_cons_of_ne_nil hfirst.1
    rw [Statement.printAll, String.toList_append, List.append_assoc]
    exact opensLine_statement hs (hfirst.2 st List.mem_cons_self) (level + 1) _

end Blocks

section Methods

variable {s : Style} {known : ClassRef → Prop} (hs : s.TellsApart known)

theorem Method.print_eq (m : Method) (level : Nat) : m.print s level =
    s.methodHead level m.name m.annotations m.modifiers m.returns m.params ++
      s.body (level + 1) m.sections ++ s.methodFoot level := by
  cases m
  rfl

include hs

theorem opensLine_method {m : Method} (h : Spelled known m.names m.refs) (level : Nat)
    (u : List Char) : OpensLine s.indent.toList level ((m.print s level).toList ++ u) := by
  obtain ⟨⟨-, -, hreturns, -⟩, -⟩ := Method.spelled_iff.mp h
  rw [Method.print_eq, Style.methodHead]
  cases m.annotations with
  | nil =>
    have hwords := Style.begins_words (s := s) (fun _ hc => StartsExpr.startsLine hc)
      (fun r hr => (hs.begins (hreturns r hr)).imp fun _ hc => hc.startsLine) m.modifiers
    simp only [List.map_nil, String.join_nil, String.empty_append, String.toList_append,
      List.append_assoc, s.toList_pad]
    exact ⟨_, rfl, hwords.append _⟩
  | cons r rs =>
    simp only [List.map_cons, String.join_cons, Style.annotationLine, String.toList_append,
      List.append_assoc, s.toList_pad]
    exact ⟨_, rfl, '@', _, rfl, by decide⟩

theorem Method.isReadable_of_sections {m : Method}
    (hread : ∀ sts ∈ m.sections, ∀ st ∈ sts, st.IsReadable s known) : m.IsReadable s known := by
  intro level m' h h'
  have hcloses (u : List Char) :
      Closes s.indent.toList level ((s.methodFoot level).toList ++ u) := by
    rw [Style.methodFoot, String.toList_append, s.toList_pad, List.append_assoc]
    exact ⟨'\n' :: u, rfl⟩
  have hbody := (readAlike_body hs level hread
    (Statement.spelled_sections (Method.spelled_iff.mp h).2)
    (Statement.spelled_sections (Method.spelled_iff.mp h').2)).closed
    (s.methodFoot level).toList hcloses
  have hmethod := (readAlike_methodHead hs level h h').andThen hbody
  simp only [Method.print_eq, String.toList_append, List.append_assoc] at hmethod ⊢
  apply hmethod.imp
  cases m
  cases m'
  rintro ⟨⟨⟨rfl, rfl, rfl⟩, rfl, rfl⟩, hsections⟩
  rw [Method.regroup, Method.regroup, hsections]

theorem isReadableOperand_new {type : ClassRef} {methods : List Method}
    (hread : ∀ m ∈ methods, m.IsReadable s known) :
    (Expr.new type methods).IsReadableOperand s known := by
  apply Expr.IsReadableOperand.of_form rfl
  intro level e' _ hform h h'
  cases e' with
  | new type' methods' =>
    obtain ⟨htype, hmethods⟩ := spelled_class.mp h
    obtain ⟨htype', hmethods'⟩ := spelled_class.mp h'
    have hspelled := Method.spelled_all hmethods
    have hspelled' := Method.spelled_all hmethods'
    have hhead := ((hs.readAlike htype htype').behind "new ".toList).closed "() \x7b\n".toList
      fun u => ⟨'(', _, rfl, by decide⟩
    have hblock := readAlike_block hs (f := fun m => (m.print s (level + 1)).toList)
      (g := Method.regroup dropEmptySections) level
      (fun m hm m' hm' => (hread m hm (level + 1) m' (hspelled m hm) (hspelled' m' hm')).of_next
        fun _ _ => trivial)
      fun m hm => opensLine_method hs ((List.mem_append.mp hm).elim (hspelled m) (hspelled' m))
        (level + 1)
    have hcloses (u : List Char) :
        Closes s.indent.toList level ((s.pad level).toList ++ "\x7d".toList ++ u) := by
      rw [s.toList_pad, List.append_assoc]
      exact ⟨u, rfl⟩
    have hwhole := hhead.andThen (hblock.closed ((s.pad level).toList ++ "\x7d".toList) hcloses)
    have htext (r : ClassRef) (ms : List Method) : ((Expr.new r ms).operand s level).toList =
        "new ".toList ++ (s.names.name r).toList ++ "() \x7b\n".toList ++
          (['\n'].intercalate (ms.map fun m => (m.print s (level + 1)).toList) ++
            ((s.pad level).toList ++ "\x7d".toList)) := by
      change ((Expr.new r ms).print s level).toList = _
      rw [Expr.print, Method.printAll_eq_map]
      simp only [String.toList_append, String.toList_intercalate, List.map_map, List.append_assoc]
      rfl
    rw [htext, htext]
    apply (hwhole.of_next fun _ _ => trivial).imp
    rintro ⟨rfl, hregroup⟩
    rw [Expr.regroup, Expr.regroup, Method.regroupAll_eq_map, Method.regroupAll_eq_map, hregroup]
  | _ => cases hform

end Methods

/-- What it takes to read an expression, and chains of calls that go on from it. -/
structure Expr.Reads (s : Style) (known : ClassRef → Prop) (e : Expr) : Prop where
  whole : e.IsReadable s known
  base : e.base.IsReadableOperand s known
  links : ∀ link ∈ e.links, ∀ a ∈ link.2, a.IsReadable s known

section Readable

variable {s : Style} {known : ClassRef → Prop}

theorem Expr.reads_of_parts (hs : s.TellsApart known) {e : Expr} (hcast : e.isCast = false)
    (hbase : e.base.IsReadableOperand s known)
    (hlinks : ∀ link ∈ e.links, ∀ a ∈ link.2, a.IsReadable s known) : e.Reads s known :=
  ⟨isReadable_of_parts hs hcast hbase hlinks, hbase, hlinks⟩

mutual

theorem Expr.reads (hs : s.TellsApart known) : ∀ e : Expr, e.Reads s known
  | .ident name => Expr.reads_of_parts hs rfl (isReadableOperand_ident name) nofun
  | .int value => Expr.reads_of_parts hs rfl (isReadableOperand_int value) nofun
  | .super => Expr.reads_of_parts hs rfl isReadableOperand_super nofun
  | .call none method args =>
    Expr.reads_of_parts hs rfl (isReadableOperand_call (Expr.isReadable_all hs args)) nofun
  | .call (some target) method args => by
    have htarget := Expr.reads hs target
    have hargs := Expr.isReadable_all hs args
    refine Expr.reads_of_parts hs rfl htarget.base ?_
    rw [Expr.links, List.forall_mem_append, List.forall_mem_singleton]
    exact ⟨htarget.links, hargs⟩
  | .cast type value => by
    have hcast : (Expr.cast type value).IsReadable s known :=
      isReadable_cast hs (Expr.reads hs value).whole
    exact ⟨hcast, isReadableOperand_cast hcast, nofun⟩
  | .new type methods =>
    Expr.reads_of_parts hs rfl (isReadableOperand_new hs (Method.isReadable_all hs methods)) nofun

theorem Expr.isReadable_all (hs : s.TellsApart known) : ∀ es : List Expr,
    ∀ e ∈ es, e.IsReadable s known
  | [] => nofun
  | e :: es => List.forall_mem_cons.mpr ⟨(Expr.reads hs e).whole, Expr.isReadable_all hs es⟩

theorem Statement.isReadable (hs : s.TellsApart known) : ∀ st : Statement, st.IsReadable s known
  | .expr value | .assign _ value | .declare _ _ value =>
    Statement.isReadable_of_value hs (Expr.reads hs value).whole

theorem Statement.isReadable_all (hs : s.TellsApart known) : ∀ sts : List Statement,
    ∀ st ∈ sts, st.IsReadable s known
  | [] => nofun
  | st :: sts =>
    List.forall_mem_cons.mpr ⟨Statement.isReadable hs st, Statement.isReadable_all hs sts⟩

theorem Statement.isReadable_sections (hs : s.TellsApart known) :
    ∀ sections : List (List Statement), ∀ sts ∈ sections, ∀ st ∈ sts, st.IsReadable s known
  | [] => nofun
  | sts :: rest =>
    List.forall_mem_cons.mpr
      ⟨Statement.isReadable_all hs sts, Statement.isReadable_sections hs rest⟩

theorem Method.isReadable (hs : s.TellsApart known) : ∀ m : Method, m.IsReadable s known
  | ⟨_, _, _, _, _, sections⟩ =>
    Method.isReadable_of_sections hs (Statement.isReadable_sections hs sections)

theorem Method.isReadable_all (hs : s.TellsApart known) : ∀ ms : List Method,
    ∀ m ∈ ms, m.IsReadable s known
  | [] => nofun
  | m :: ms => List.forall_mem_cons.mpr ⟨Method.isReadable hs m, Method.isReadable_all hs ms⟩

end

end Readable

/-- Statements are printed alike only if they are the same but for sections without statements,
given that what they are made of is named by identifiers, that each class is printed as identifiers
with dots between them, its package included where that is printed, and that no two classes are
printed alike. -/
theorem Statement.print_eq_iff (s : Style) (level : Nat) {st st' : Statement}
    (hindent : ∀ c ∈ s.indent.toList, c = ' ' ∨ c = '\t')
    (hnames : ∀ n ∈ st.names ++ st'.names, isIdentifier n = true)
    (hrefs : ∀ r ∈ st.refs ++ st'.refs, isQualifiedName (s.names.name r) = true)
    (hdistinct : ∀ r ∈ st.refs ++ st'.refs, ∀ r' ∈ st.refs ++ st'.refs,
      s.names.name r = s.names.name r' → r = r') :
    st.print s level = st'.print s level ↔ st.compact = st'.compact := by
  have hs : s.TellsApart (· ∈ st.refs ++ st'.refs) :=
    ⟨hindent, hrefs, fun r r' hr hr' => hdistinct r hr r' hr'⟩
  have hcompact (st : Statement) : st.compact.print s level = st.print s level :=
    Statement.print_regroup (keepsBodies_dropEmptySections s) level st
  constructor
  · intro h
    have hspelled : Spelled (· ∈ st.refs ++ st'.refs) st.names st.refs :=
      ⟨fun n hn => hnames n (List.mem_append_left _ hn), fun r hr => List.mem_append_left _ hr⟩
    have hspelled' : Spelled (· ∈ st.refs ++ st'.refs) st'.names st'.refs :=
      ⟨fun n hn => hnames n (List.mem_append_right _ hn), fun r hr => List.mem_append_right _ hr⟩
    have hread := Statement.isReadable hs st level st' hspelled hspelled'
    exact (hread [] [] trivial trivial (by rw [h])).1
  · intro h
    rw [← hcompact st, h, hcompact st']

/-- Inside of a listener, a cast of a call and a call on a cast. -/
theorem Statement.print_eq_iff_cast :
    let s : Style := ⟨⟨[], []⟩, "\t"⟩
    let button : ClassRef := ⟨"b", "Button"⟩
    let castOfCall : Expr := .cast button (.call (some (.ident "view")) "get" [])
    let callOnCast : Expr := .call (some (.cast button (.ident "view"))) "get" []
    let listener (sections : List (List Statement)) : Statement :=
      .assign "listener" (.new ⟨"b", "Listener"⟩ [⟨"onClick", [], [.public], .void, [], sections⟩])
    let st := listener [[.expr castOfCall]]
    let st' := listener [[.expr callOnCast]]
    (∀ c ∈ s.indent.toList, c = ' ' ∨ c = '\t') ∧
      (∀ n ∈ st.names ++ st'.names, isIdentifier n = true) ∧
      (∀ r ∈ st.refs ++ st'.refs, isQualifiedName (s.names.name r) = true) ∧
      (∀ r ∈ st.refs ++ st'.refs, ∀ r' ∈ st.refs ++ st'.refs,
        s.names.name r = s.names.name r' → r = r') ∧
      st.print s 1 ≠ st'.print s 1 := by
  intro s button castOfCall callOnCast listener st st'
  have hindent : ∀ c ∈ s.indent.toList, c = ' ' ∨ c = '\t' := by simp [s]
  have hnames : ∀ n ∈ st.names ++ st'.names, isIdentifier n = true := by decide +kernel
  have hqualified : ∀ r ∈ st.refs ++ st'.refs, isQualifiedName r.qualified = true := by
    decide +kernel
  have hrefs : ∀ r ∈ st.refs ++ st'.refs, isQualifiedName (s.names.name r) = true :=
    fun r hr => Names.isQualifiedName_name (hqualified r hr)
  have hdistinct : ∀ r ∈ st.refs ++ st'.refs, ∀ r' ∈ st.refs ++ st'.refs,
      s.names.name r = s.names.name r' → r = r' := by decide +kernel
  refine ⟨hindent, hnames, hrefs, hdistinct, ?_⟩
  intro h
  have hcompact := (print_eq_iff s 1 hindent hnames hrefs hdistinct).1 h
  cases hcompact

end ViewWiring.Code
