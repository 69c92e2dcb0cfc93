import ViewWiring.Proofs.Printer.Expressions

namespace ViewWiring.Code

section Leads

/-- What the word that a statement begins with shows of it. -/
inductive Lead
  | expr
  | assign
  | declare

/-- A word with a blank behind it is the variable that is assigned, the class of a new one, or the
beginning of a new object. -/
def leadOf (text : List Char) : Lead :=
  let rest := text.dropWhile isWordChar
  if rest.head? ≠ some ' ' ∨ text.takeWhile isWordChar = "new".toList then .expr
  else if rest.tail.head? = some '=' then .assign
  else .declare

def Statement.lead : Statement → Lead
  | .expr _ => .expr
  | .assign .. => .assign
  | .declare .. => .declare

/-- A text whose first word is `new`, or has no blank behind it. -/
def LeadsExpr (text : List Char) : Prop :=
  ∃ word rest, text = word ++ rest ∧ (∀ c ∈ word, isWordChar c = true) ∧
    (rest = [] ∨ Begins (isWordChar · = false) rest ∧
      (word = "new".toList ∨ rest.head? ≠ some ' '))

theorem LeadsExpr.word (word : List Char) (h : ∀ c ∈ word, isWordChar c = true) : LeadsExpr word :=
  ⟨word, [], (List.append_nil word).symm, h, .inl rfl⟩

theorem LeadsExpr.behind (word : List Char) (h : ∀ c ∈ word, isWordChar c = true) {c : Char}
    (hc : isWordChar c = false) (hblank : word = "new".toList ∨ c ≠ ' ') (rest : List Char) :
    LeadsExpr (word ++ c :: rest) := by
  refine ⟨word, c :: rest, rfl, h, .inr ⟨⟨c, rest, rfl, hc⟩, hblank.imp_right fun hne => ?_⟩⟩
  rw [List.head?_cons]
  exact fun he => hne (Option.some.inj he)

/-- A call on an expression leaves the first word as it is, or makes it longer. -/
theorem LeadsExpr.append_call {text : List Char} (h : LeadsExpr text) {method : List Char}
    (hmethod : ∀ c ∈ method, isWordChar c = true) (args : List Char) :
    LeadsExpr (text ++ '.' :: (method ++ '(' :: args)) := by
  obtain ⟨word, rest, rfl, hword, rfl | ⟨hrest, hblank⟩⟩ := h
  · have hlonger : ∀ c ∈ word ++ '.' :: method, isWordChar c = true := by
      rw [List.forall_mem_append, List.forall_mem_cons]
      exact ⟨hword, by decide, hmethod⟩
    have hcall := behind _ hlonger (c := '(') (by decide) (.inr (by decide)) args
    rwa [List.append_assoc, List.cons_append, ← List.append_nil word] at hcall
  · refine ⟨word, rest ++ '.' :: (method ++ '(' :: args), List.append_assoc _ _ _, hword,
      .inr ⟨hrest.append _, hblank.imp_right fun hne => ?_⟩⟩
    obtain ⟨c, cs, rfl, -⟩ := hrest
    exact hne

theorem LeadsExpr.leadOf_append {text u : List Char} (h : LeadsExpr text) (hu : Begins EndsExpr u) :
    leadOf (text ++ u) = .expr := by
  have hends : Begins (isWordChar · = false) u := by
    refine hu.imp fun c hc => ?_
    rcases hc with rfl | rfl | rfl <;> decide
  have hblank : u.head? ≠ some ' ' := by
    obtain ⟨c, cs, rfl, hc⟩ := hu
    rcases hc with rfl | rfl | rfl <;> simp
  obtain ⟨word, rest, rfl, hword, rfl | ⟨hrest, hnew⟩⟩ := h
  · rw [List.append_nil, leadOf, dropWhile_word hword hends, if_pos (.inl hblank)]
  · have hhead : (rest ++ u).head? = rest.head? := by
      obtain ⟨c, cs, rfl, -⟩ := hrest
      rfl
    rw [List.append_assoc, leadOf, dropWhile_word hword (hrest.append u),
      takeWhile_word hword (hrest.append u), hhead, if_pos hnew.symm]

variable {s : Style} {known : ClassRef → Prop} {level : Nat}

theorem leadsExpr_int (n : Int) : LeadsExpr (toString n).toList := by
  have hdigit {c : Char} (hc : c.isDigit = true) : isWordChar c = true := by
    rw [isWordChar, isIdentifierPart, hc, Bool.or_true, Bool.true_or]
  obtain ⟨c, cs, hn, hc, hcs⟩ := exists_toString_eq_cons n
  rw [hn]
  rcases hc with hc | rfl
  · exact .word _ (List.forall_mem_cons.mpr ⟨hdigit hc, fun d hd => hdigit (hcs d hd)⟩)
  · exact .behind [] (List.forall_mem_nil _) (by decide) (.inr (by decide)) cs

theorem leadsExpr_operand {e : Expr} (hlinks : e.links = []) (h : Spelled known e.names e.refs) :
    LeadsExpr (e.operand s level).toList := by
  cases e with
  | ident name => exact .word _ (isWordChar_of_isIdentifier (h.names name List.mem_cons_self))
  | int value => exact leadsExpr_int value
  | super => exact .word "super".toList (List.all_eq_true.mp (by decide))
  | call target method args =>
    cases target with
    | some target => simp [Expr.links] at hlinks
    | none =>
      change LeadsExpr ((Expr.call none method args).print s level).toList
      rw [Expr.print, toList_printCall, callText, List.append_assoc, List.append_assoc]
      exact .behind _ (isWordChar_of_isIdentifier (h.names method List.mem_cons_self)) (by decide)
        (.inr (by decide)) _
  | cast type value =>
    change LeadsExpr ("(" ++ (Expr.cast type value).print s level ++ ")").toList
    simp only [String.toList_append, List.append_assoc]
    exact .behind [] (List.forall_mem_nil _) (by decide) (.inr (by decide)) _
  | new type methods =>
    have hnew : "new " = "new" ++ " " := rfl
    change LeadsExpr ((Expr.new type methods).print s level).toList
    simp only [Expr.print, hnew, String.toList_append, List.append_assoc]
    exact .behind "new".toList (List.all_eq_true.mp (by decide)) (by decide) (.inl rfl) _

theorem LeadsExpr.append_links {text : List Char} (h : LeadsExpr text)
    {links : List (String × List Expr)} (hlinks : ∀ link ∈ links, isIdentifier link.1 = true) :
    LeadsExpr (text ++ links.flatMap fun link => '.' :: callText s level link) := by
  induction links generalizing text with
  | nil => rwa [List.flatMap_nil, List.append_nil]
  | cons link links ih =>
    obtain ⟨hlink, hlinks⟩ := List.forall_mem_cons.mp hlinks
    have hcall := h.append_call (isWordChar_of_isIdentifier hlink)
      ([',', ' '].intercalate (link.2.map fun e => (e.print s level).toList) ++ [')'])
    have hmore := ih hcall hlinks
    rw [List.flatMap_cons, callText, List.append_assoc, List.append_assoc, ← List.append_assoc]
    exact hmore

theorem leadsExpr_print {e : Expr} (h : Spelled known e.names e.refs) :
    LeadsExpr (e.print s level).toList := by
  cases hcast : e.isCast with
  | true =>
    cases e with
    | cast type value =>
      simp only [Expr.print, String.toList_append, List.append_assoc]
      exact .behind [] (List.forall_mem_nil _) (by decide) (.inr (by decide)) _
    | _ => cases hcast
  | false =>
    have hbase : LeadsExpr (e.base.operand s level).toList :=
      leadsExpr_operand e.links_base (Expr.spelled_base h)
    rw [← Expr.operand_of_isCast_eq_false hcast, Expr.operand_eq]
    exact hbase.append_links fun link hlink => (Expr.spelled_links h link hlink).1

variable (hs : s.TellsApart known)

include hs

theorem leadOf_statement {st : Statement} (h : Spelled known st.names st.refs) (u : List Char) :
    leadOf ((st.head s ++ st.value.print s level).toList ++ ';' :: u) = st.lead := by
  have hblank (text : List Char) : Begins (isWordChar · = false) (" ".toList ++ text) :=
    ⟨' ', text, rfl, by decide⟩
  cases st with
  | expr value =>
    rw [Statement.head, String.empty_append]
    exact (leadsExpr_print h).leadOf_append ⟨';', u, rfl, .inr (.inr rfl)⟩
  | assign target value =>
    obtain ⟨htarget, -⟩ := spelled_name.mp h
    have hword := isWordChar_of_isIdentifier htarget
    have hnew : target.toList ≠ "new".toList := fun he =>
      ne_reserved_of_isIdentifier htarget (by decide) (String.toList_inj.mp he)
    have hend : " = " = " " ++ "= " := rfl
    simp only [Statement.head, hend, String.toList_append, List.append_assoc]
    rw [leadOf, dropWhile_word hword (hblank _), takeWhile_word hword (hblank _),
      if_neg (by simpa using hnew)]
    rfl
  | declare type name value =>
    obtain ⟨hname, htyped⟩ := spelled_name.mp h
    have htype := hs.named type (spelled_class.mp htyped).1
    have hword := isWordChar_of_isQualifiedName htype
    have hnew : (s.names.name type).toList ≠ "new".toList := fun he =>
      ne_reserved_of_isQualifiedName htype (by decide) (String.toList_inj.mp he)
    have hassign (text : List Char) : (name.toList ++ text).head? ≠ some '=' := by
      obtain ⟨c, cs, hc, hstart⟩ := begins_of_isIdentifier hname
      rw [hc, List.cons_append, List.head?_cons]
      rintro ⟨⟩
      exact absurd hstart (by decide)
    simp only [Statement.head, String.toList_append, List.append_assoc]
    rw [leadOf, dropWhile_word hword (hblank _), takeWhile_word hword (hblank _),
      if_neg (by simpa using hnew)]
    exact if_neg (hassign _)

end Leads

/-- A statement that no other one is taken for, whatever follows. -/
def Statement.IsReadable (s : Style) (known : ClassRef → Prop) (st : Statement) : Prop :=
  ∀ (level : Nat) (st' : Statement), Spelled known st.names st.refs →
    Spelled known st'.names st'.refs →
    ReadAlike Anything (st.print s level).toList (st'.print s level).toList
      (st.compact = st'.compact)

section Statements

variable {s : Style} {known : ClassRef → Prop} (hs : s.TellsApart known)

include hs

theorem lead_eq_of_print_eq {st st' : Statement} {level : Nat} {u v : List Char}
    (h : Spelled known st.names st.refs) (h' : Spelled known st'.names st'.refs)
    (huv : (st.print s level).toList ++ u = (st'.print s level).toList ++ v) :
    st'.lead = st.lead := by
  have hprint (st : Statement) (w : List Char) : (st.print s level).toList ++ w =
      (s.pad level).toList ++
        ((st.head s ++ st.value.print s level).toList ++ ';' :: '\n' :: w) := by
    rw [Statement.print_eq]
    simp only [String.toList_append, List.append_assoc]
    rfl
  rw [hprint, hprint] at huv
  rw [← leadOf_statement hs h ('\n' :: u), List.append_cancel_left huv, leadOf_statement hs h']

/-- A statement is read like its value. -/
theorem Statement.isReadable_of_value {st : Statement} (hread : st.value.IsReadable s known) :
    st.IsReadable s known := by
  intro level st' h h' u v hu hv huv
  have hlead := lead_eq_of_print_eq hs h h' huv
  have hvalue := (hread level st'.value (Statement.spelled_value h)
    (Statement.spelled_value h')).closed ";\n".toList
    fun u => ⟨';', '\n' :: u, rfl, .inr (.inr rfl)⟩
  cases st with
  | expr value =>
    cases st' with
    | expr value' =>
      have hline := hvalue.behind (s.pad level).toList
      refine (hline u v hu hv ?_).imp_left fun hregroup => congrArg Statement.expr hregroup
      simpa only [Statement.print, Statement.value, String.toList_append, List.append_assoc]
        using huv
    | _ => cases hlead
  | assign target value =>
    cases st' with
    | assign target' value' =>
      have hname := readAlike_name (spelled_name.mp h).1 (spelled_name.mp h').1
      have hhead := (hname.behind (s.pad level).toList).closed " = ".toList
        fun u => ⟨' ', '=' :: ' ' :: u, rfl, by decide⟩
      have hline := hhead.andThen hvalue
      refine (hline u v hu hv ?_).imp_left ?_
      · simpa only [Statement.print, Statement.value, String.toList_append, List.append_assoc]
          using huv
      · rintro ⟨rfl, hregroup⟩
        exact congrArg (Statement.assign target) hregroup
    | _ => cases hlead
  | declare type name value =>
    cases st' with
    | declare type' name' value' =>
      obtain ⟨hname, htyped⟩ := spelled_name.mp h
      obtain ⟨hname', htyped'⟩ := spelled_name.mp h'
      have htype := hs.readAlike (spelled_class.mp htyped).1 (spelled_class.mp htyped').1
      have hhead := (htype.behind (s.pad level).toList).closed " ".toList
        fun u => ⟨' ', u, rfl, by decide⟩
      have hvar := (readAlike_name hname hname').closed " = ".toList
        fun u => ⟨' ', '=' :: ' ' :: u, rfl, by decide⟩
      have hline := (hhead.andThen hvar).andThen hvalue
      refine (hline u v hu hv ?_).imp_left ?_
      · simpa only [Statement.print, Statement.value, String.toList_append, List.append_assoc]
          using huv
      · rintro ⟨⟨rfl, rfl⟩, hregroup⟩
        exact congrArg (Statement.declare type name) hregroup
    | _ => cases hlead

theorem opensLine_statement {st : Statement} (h : Spelled known st.names st.refs) (level : Nat)
    (u : List Char) : OpensLine s.indent.toList level ((st.print s level).toList ++ u) := by
  have hcode := Statement.begins_code (fun _ hc => StartsExpr.startsLine hc)
    (fun r hr => (hs.begins hr).imp fun _ hc => hc.startsLine) level h
  refine ⟨_, ?_, hcode.append (";\n".toList ++ u)⟩
  rw [Statement.print_eq]
  simp only [String.toList_append, s.toList_pad, List.append_assoc]

end Statements

end ViewWiring.Code
