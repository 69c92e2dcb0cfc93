import ViewWiring.Code.Printer
import ViewWiring.Proofs.Names.Identifiers
import ViewWiring.Proofs.Printer.Pieces
import ViewWiring.Proofs.Text.Layout

namespace ViewWiring.Code

mutual

/-- The names of variables, methods and parameters in an expression. -/
def Expr.names : Expr → List String
  | .ident name => [name]
  | .int _ | .super => []
  | .call none method args => method :: Expr.namesAll args
  | .call (some target) method args => target.names ++ method :: Expr.namesAll args
  | .cast _ value => value.names
  | .new _ methods => Method.namesAll methods

def Expr.namesAll : List Expr → List String
  | [] => []
  | e :: es => e.names ++ Expr.namesAll es

def Statement.names : Statement → List String
  | .expr value => value.names
  | .assign name value | .declare _ name value => name :: value.names

def Statement.namesAll : List Statement → List String
  | [] => []
  | st :: sts => st.names ++ Statement.namesAll sts

def Statement.namesOfSections : List (List Statement) → List String
  | [] => []
  | sts :: rest => Statement.namesAll sts ++ Statement.namesOfSections rest

def Method.names : Method → List String
  | ⟨name, _, _, _, params, sections⟩ =>
    name :: (params.map Parameter.name ++ Statement.namesOfSections sections)

def Method.namesAll : List Method → List String
  | [] => []
  | m :: ms => m.names ++ Method.namesAll ms

end

/-- What stands before the value of a statement. -/
def Statement.head (s : Style) : Statement → String
  | .expr _ => ""
  | .assign target _ => target ++ " = "
  | .declare type name _ => s.names.name type ++ " " ++ name ++ " = "

def Statement.value : Statement → Expr
  | .expr value | .assign _ value | .declare _ _ value => value

theorem Statement.print_eq (s : Style) (level : Nat) (st : Statement) :
    st.print s level = s.pad level ++ st.head s ++ st.value.print s level ++ ";\n" := by
  cases st <;>
    simp only [Statement.print, Statement.head, Statement.value, String.append_empty,
      String.append_assoc]

/-- The names in a file, that of its class the first. -/
def SourceFile.names (f : SourceFile) : List String := f.className :: Method.namesAll f.methods

theorem Expr.namesAll_eq_flatMap (es : List Expr) : Expr.namesAll es = es.flatMap Expr.names := by
  induction es with
  | nil => rfl
  | cons e es ih => rw [Expr.namesAll, ih, List.flatMap_cons]

theorem Statement.namesAll_eq_flatMap (sts : List Statement) :
    Statement.namesAll sts = sts.flatMap Statement.names := by
  induction sts with
  | nil => rfl
  | cons st sts ih => rw [Statement.namesAll, ih, List.flatMap_cons]

theorem Statement.namesOfSections_eq_flatMap (sections : List (List Statement)) :
    Statement.namesOfSections sections = sections.flatten.flatMap Statement.names := by
  induction sections with
  | nil => rfl
  | cons sts rest ih =>
    rw [Statement.namesOfSections, ih, Statement.namesAll_eq_flatMap, List.flatten_cons,
      List.flatMap_append]

theorem Method.namesAll_eq_flatMap (ms : List Method) :
    Method.namesAll ms = ms.flatMap Method.names := by
  induction ms with
  | nil => rfl
  | cons m ms ih => rw [Method.namesAll, ih, List.flatMap_cons]

/-- Names that are identifiers, and classes of which all that is `known` holds. -/
structure Spelled (known : ClassRef → Prop) (names : List String) (refs : List ClassRef) :
    Prop where
  names : ∀ n ∈ names, isIdentifier n = true
  classes : ∀ r ∈ refs, known r

section Numbers

theorem isDigit_of_mem_repr {k : ℕ} {c : Char} (h : c ∈ k.repr.toList) : c.isDigit = true := by
  rw [Nat.toList_repr] at h
  exact Nat.isDigit_of_mem_toDigits (by decide) (by decide) h

theorem toList_toString_negSucc (k : ℕ) :
    (toString (Int.negSucc k)).toList = '-' :: (k + 1).repr.toList := by
  change ("-" ++ (k + 1).repr).toList = _
  rw [String.toList_append]
  rfl

/-- A number is written in digits, perhaps with a minus sign before them. -/
theorem exists_toString_eq_cons (n : Int) :
    ∃ c cs, (toString n).toList = c :: cs ∧ (c.isDigit = true ∨ c = '-') ∧
      ∀ d ∈ cs, d.isDigit = true := by
  cases n with
  | ofNat k =>
    have hne : k.repr.toList ≠ [] := by
      rw [Nat.toList_repr]
      exact Nat.toDigits_ne_nil
    obtain ⟨c, cs, hk⟩ := List.exists_cons_of_ne_nil hne
    have hdigits : ∀ d ∈ c :: cs, d.isDigit = true := fun d hd => isDigit_of_mem_repr (hk ▸ hd)
    rw [List.forall_mem_cons] at hdigits
    exact ⟨c, cs, hk, .inl hdigits.1, hdigits.2⟩
  | negSucc k =>
    exact ⟨'-', _, toList_toString_negSucc k, .inr rfl, fun d hd => isDigit_of_mem_repr hd⟩

theorem eq_of_repr_eq {k k' : ℕ} (h : k.repr = k'.repr) : k = k' := by
  rw [← Nat.ofDigitChars_ten_toDigits (n := k), ← Nat.toList_repr, h, Nat.toList_repr,
    Nat.ofDigitChars_ten_toDigits]

theorem eq_of_toString_eq {n n' : Int} (h : toString n = toString n') : n = n' := by
  have hsign (k k' : ℕ) : toString (Int.ofNat k) ≠ toString (Int.negSucc k') := by
    intro he
    have hminus : '-' ∈ k.repr.toList := by
      change '-' ∈ (toString (Int.ofNat k)).toList
      rw [he, toList_toString_negSucc]
      exact List.mem_cons_self
    have hdigit := isDigit_of_mem_repr hminus
    revert hdigit
    decide
  cases n with
  | ofNat k =>
    cases n' with
    | ofNat k' => exact congrArg Int.ofNat (eq_of_repr_eq h)
    | negSucc k' => exact absurd h (hsign k k')
  | negSucc k =>
    cases n' with
    | ofNat k' => exact absurd h.symm (hsign k' k)
    | negSucc k' =>
      have hlists := congrArg String.toList h
      rw [toList_toString_negSucc, toList_toString_negSucc, List.cons.injEq,
        String.toList_inj] at hlists
      rw [Nat.succ.inj (eq_of_repr_eq hlists.2)]

end Numbers

section Spelled

variable {known : ClassRef → Prop} {names names' : List String} {refs refs' : List ClassRef}

theorem spelled_append :
    Spelled known (names ++ names') (refs ++ refs') ↔
      Spelled known names refs ∧ Spelled known names' refs' := by
  constructor
  · rintro ⟨hn, hr⟩
    rw [List.forall_mem_append] at hn hr
    exact ⟨⟨hn.1, hr.1⟩, hn.2, hr.2⟩
  · rintro ⟨⟨hn, hr⟩, hn', hr'⟩
    exact ⟨List.forall_mem_append.mpr ⟨hn, hn'⟩, List.forall_mem_append.mpr ⟨hr, hr'⟩⟩

theorem spelled_name {name : String} :
    Spelled known (name :: names) refs ↔ isIdentifier name = true ∧ Spelled known names refs := by
  constructor
  · rintro ⟨hn, hr⟩
    exact ⟨(List.forall_mem_cons.mp hn).1, (List.forall_mem_cons.mp hn).2, hr⟩
  · rintro ⟨hname, hn, hr⟩
    exact ⟨List.forall_mem_cons.mpr ⟨hname, hn⟩, hr⟩

theorem spelled_class {r : ClassRef} :
    Spelled known names (r :: refs) ↔ known r ∧ Spelled known names refs := by
  constructor
  · rintro ⟨hn, hr⟩
    exact ⟨(List.forall_mem_cons.mp hr).1, hn, (List.forall_mem_cons.mp hr).2⟩
  · rintro ⟨hclass, hn, hr⟩
    exact ⟨hn, List.forall_mem_cons.mpr ⟨hclass, hr⟩⟩

theorem spelled_flatMap {α : Type} {namesOf : α → List String} {refsOf : α → List ClassRef}
    {as : List α} (h : Spelled known (as.flatMap namesOf) (as.flatMap refsOf)) :
    ∀ a ∈ as, Spelled known (namesOf a) (refsOf a) :=
  fun a ha => ⟨fun n hn => h.names n (List.mem_flatMap.mpr ⟨a, ha, hn⟩),
    fun r hr => h.classes r (List.mem_flatMap.mpr ⟨a, ha, hr⟩)⟩

theorem Expr.spelled_all {es : List Expr} (h : Spelled known (Expr.namesAll es) (Expr.refsAll es)) :
    ∀ e ∈ es, Spelled known e.names e.refs := by
  rw [Expr.namesAll_eq_flatMap, Expr.refsAll_eq_flatMap] at h
  exact spelled_flatMap h

theorem Method.spelled_all {ms : List Method}
    (h : Spelled known (Method.namesAll ms) (Method.refsAll ms)) :
    ∀ m ∈ ms, Spelled known m.names m.refs := by
  rw [Method.namesAll_eq_flatMap, Method.refsAll_eq_flatMap] at h
  exact spelled_flatMap h

theorem Statement.spelled_sections {sections : List (List Statement)}
    (h : Spelled known (Statement.namesOfSections sections) (Statement.refsOfSections sections)) :
    ∀ sts ∈ sections, ∀ st ∈ sts, Spelled known st.names st.refs := by
  rw [Statement.namesOfSections_eq_flatMap, Statement.refsOfSections_eq_flatMap] at h
  intro sts hsts st hst
  exact spelled_flatMap h st (List.mem_flatten.mpr ⟨sts, hsts, hst⟩)

/-- Of a method, its head and its body are spelled. -/
theorem Method.spelled_iff {m : Method} :
    Spelled known m.names m.refs ↔
      (isIdentifier m.name = true ∧ (∀ r ∈ m.annotations, known r) ∧
        (∀ r ∈ m.returns.refs, known r) ∧
        ∀ p ∈ m.params, isIdentifier p.name = true ∧ known p.type) ∧
      Spelled known (Statement.namesOfSections m.sections)
        (Statement.refsOfSections m.sections) := by
  have hclasses {ns : List String} {rs rs' : List ClassRef} :
      Spelled known ns (rs ++ rs') ↔ (∀ r ∈ rs, known r) ∧ Spelled known ns rs' := by
    rw [← List.nil_append ns, spelled_append, List.nil_append]
    exact and_congr_left fun _ => ⟨fun h => h.classes, fun h => ⟨nofun, h⟩⟩
  have hparams : Spelled known (m.params.map Parameter.name) (m.params.map Parameter.type) ↔
      ∀ p ∈ m.params, isIdentifier p.name = true ∧ known p.type := by
    constructor
    · rintro ⟨hn, hr⟩ p hp
      exact ⟨hn _ (List.mem_map_of_mem hp), hr _ (List.mem_map_of_mem hp)⟩
    · intro h
      exact ⟨List.forall_mem_map.mpr fun p hp => (h p hp).1,
        List.forall_mem_map.mpr fun p hp => (h p hp).2⟩
  cases m with
  | mk name annotations modifiers returns params sections =>
    simp only [Method.names, Method.refs]
    rw [spelled_name, List.append_assoc, List.append_assoc, hclasses, hclasses, spelled_append,
      hparams]
    simp only [and_assoc]

/-- What the text of an expression can begin with. -/
def StartsExpr (c : Char) : Prop := isIdentifierPart c = true ∨ c = '-' ∨ c = '('

instance : DecidablePred StartsExpr := fun c =>
  inferInstanceAs (Decidable (isIdentifierPart c = true ∨ c = '-' ∨ c = '('))

theorem begins_of_isIdentifier {name : String} (h : isIdentifier name = true) :
    Begins StartsExpr name.toList := by
  obtain ⟨⟨c, cs, hname, hc, -⟩, -⟩ := isIdentifier_iff.mp h
  exact ⟨c, cs, hname, .inl (by rw [isIdentifierPart, hc, Bool.true_or])⟩

theorem begins_of_isQualifiedName {name : String} (h : isQualifiedName name = true) :
    Begins StartsExpr name.toList := by
  obtain ⟨c, cs, hname, hc, -⟩ := exists_of_isQualifiedName h
  exact ⟨c, cs, hname, .inl (by rw [isIdentifierPart, hc, Bool.true_or])⟩

theorem Expr.begins_print (s : Style) (level : Nat) : ∀ {e : Expr},
    Spelled known e.names e.refs → Begins StartsExpr (e.print s level).toList
  | .ident name, h => begins_of_isIdentifier (h.names name List.mem_cons_self)
  | .int value, _ => by
    obtain ⟨c, cs, hvalue, hc, -⟩ := exists_toString_eq_cons value
    refine ⟨c, cs, hvalue, hc.imp (fun hdigit => ?_) .inl⟩
    rw [isIdentifierPart, hdigit, Bool.or_true]
  | .super, _ => ⟨'s', "uper".toList, by rw [Expr.print]; rfl, .inl (by decide)⟩
  | .call none method args, h => by
    have hmethod := begins_of_isIdentifier (h.names method List.mem_cons_self)
    rw [Expr.print, String.append_assoc, String.append_assoc, String.toList_append]
    exact hmethod.append _
  | .call (some target) method args, h => by
    have htarget := Expr.begins_print s level (spelled_append.mp h).1
    have hparen : Begins StartsExpr "(".toList := ⟨'(', [], rfl, .inr (.inr rfl)⟩
    simp only [Expr.print, String.toList_append, List.append_assoc]
    split
    · simp only [String.toList_append, List.append_assoc]
      exact hparen.append _
    · exact htarget.append _
  | .cast type value, _ => by
    have hparen : Begins StartsExpr "(".toList := ⟨'(', [], rfl, .inr (.inr rfl)⟩
    simp only [Expr.print, String.toList_append, List.append_assoc]
    exact hparen.append _
  | .new type methods, _ => by
    have hnew : Begins StartsExpr "new ".toList := ⟨'n', "ew ".toList, rfl, .inl (by decide)⟩
    simp only [Expr.print, String.toList_append, List.append_assoc]
    exact hnew.append _

theorem Statement.spelled_value {st : Statement} (h : Spelled known st.names st.refs) :
    Spelled known st.value.names st.value.refs := by
  cases st with
  | expr value => exact h
  | assign target value => exact (spelled_name.mp h).2
  | declare type name value => exact (spelled_class.mp (spelled_name.mp h).2).2

/-- A statement begins like an expression or like the name of a class. -/
theorem Statement.begins_code {s : Style} {p : Char → Prop} (hexpr : ∀ c, StartsExpr c → p c)
    (hclass : ∀ r, known r → Begins p (s.names.name r).toList) (level : Nat) {st : Statement}
    (h : Spelled known st.names st.refs) :
    Begins p (st.head s ++ st.value.print s level).toList := by
  rw [String.toList_append]
  cases st with
  | expr value => exact (Expr.begins_print s level h).imp hexpr
  | assign target value =>
    have htarget := (begins_of_isIdentifier (spelled_name.mp h).1).imp hexpr
    rw [Statement.head, String.toList_append]
    exact (htarget.append _).append _
  | declare type name value =>
    have htype := hclass type (spelled_class.mp (spelled_name.mp h).2).1
    simp only [Statement.head, String.toList_append, List.append_assoc]
    exact htype.append _

theorem begins_word (m : Modifier) : Begins StartsExpr m.word.toList := by
  cases m <;> exact ⟨_, _, rfl, .inl (by decide)⟩

/-- The words before the name of a method. -/
theorem Style.begins_words {s : Style} {p : Char → Prop} (hexpr : ∀ c, StartsExpr c → p c)
    {returns : ResultType} (hclass : ∀ r ∈ returns.refs, Begins p (s.names.name r).toList)
    (modifiers : List Modifier) :
    Begins p (" ".intercalate (modifiers.map Modifier.word ++ [s.result returns])).toList := by
  rw [intercalate_blank, String.toList_append]
  cases modifiers with
  | nil =>
    cases returns with
    | void =>
      rw [Style.result]
      exact ⟨'v', "oid".toList, rfl, hexpr 'v' (.inl (by decide))⟩
    | ofClass type => exact hclass type List.mem_cons_self
  | cons m ms =>
    simp only [List.map_cons, String.join_cons, String.toList_append, List.append_assoc]
    exact ((begins_word m).imp hexpr).append _

end Spelled

end ViewWiring.Code
