import ViewWiring.Proofs.Printer.Layout
import ViewWiring.Proofs.Printer.Sections
import ViewWiring.Proofs.Text.Reading

namespace ViewWiring.Code

/-- A style that indents by blanks, and in which some classes have names, each its own. -/
structure Style.TellsApart (s : Style) (known : ClassRef → Prop) : Prop where
  blank : ∀ c ∈ s.indent.toList, c = ' ' ∨ c = '\t'
  named : ∀ r, known r → isQualifiedName (s.names.name r) = true
  distinct : ∀ r r', known r → known r' → s.names.name r = s.names.name r' → r = r'

def isWordChar (c : Char) : Bool := isIdentifierPart c || c == '.'

/-- What comes next to an expression. -/
def EndsExpr (c : Char) : Prop := c = ',' ∨ c = ')' ∨ c = ';'

instance : DecidablePred EndsExpr := fun c =>
  inferInstanceAs (Decidable (c = ',' ∨ c = ')' ∨ c = ';'))

/-- What comes next to an expression that has no calls on it, or not all of them yet. -/
def EndsOperand (c : Char) : Prop := c = '.' ∨ EndsExpr c

theorem EndsOperand.not_isIdentifierPart {c : Char} (h : EndsOperand c) :
    isIdentifierPart c = false := by
  rcases h with rfl | rfl | rfl | rfl <;> decide

section Words

theorem isWordChar_of_isIdentifier {name : String} (h : isIdentifier name = true) :
    ∀ c ∈ name.toList, isWordChar c = true := by
  intro c hc
  rw [isWordChar, (isIdentifier_iff.mp h).1.isIdentifierPart_of_mem hc, Bool.true_or]

theorem isWordChar_of_isQualifiedName {name : String} (h : isQualifiedName name = true) :
    ∀ c ∈ name.toList, isWordChar c = true := by
  obtain ⟨c, cs, hname, hc, hcs⟩ := exists_of_isQualifiedName h
  rw [hname, List.forall_mem_cons]
  constructor
  · rw [isWordChar, isIdentifierPart, hc]
    rfl
  · intro d hd
    rcases hcs d hd with hd | rfl
    · rw [isWordChar, hd, Bool.true_or]
    · decide

theorem readAlike_name {name name' : String} (h : isIdentifier name = true)
    (h' : isIdentifier name' = true) :
    ReadAlike (Begins (isIdentifierPart · = false)) name.toList name'.toList (name = name') :=
  (ReadAlike.words (fun _ hc => (isIdentifier_iff.mp h).1.isIdentifierPart_of_mem hc)
    (fun _ hc => (isIdentifier_iff.mp h').1.isIdentifierPart_of_mem hc)).imp String.toList_inj.mp

theorem readAlike_int (n n' : Int) :
    ReadAlike (Begins EndsOperand) (toString n).toList (toString n').toList (n = n') := by
  have hchars (k : Int) : ∀ c ∈ (toString k).toList, (c.isDigit || c == '-') = true := by
    obtain ⟨c, cs, hk, hc, hcs⟩ := exists_toString_eq_cons k
    rw [hk, List.forall_mem_cons]
    constructor
    · rcases hc with hc | rfl
      · rw [hc, Bool.true_or]
      · decide
    · intro d hd
      rw [hcs d hd, Bool.true_or]
  have hnext (c : Char) (hc : EndsOperand c) : (c.isDigit || c == '-') = false := by
    rcases hc with rfl | rfl | rfl | rfl <;> decide
  have hwords := (ReadAlike.words (hchars n) (hchars n')).of_next fun _ hu => Begins.imp hu hnext
  exact hwords.imp fun h => eq_of_toString_eq (String.toList_inj.mp h)

variable {s : Style} {known : ClassRef → Prop} (hs : s.TellsApart known)

include hs

theorem Style.TellsApart.begins {r : ClassRef} (hr : known r) :
    Begins StartsExpr (s.names.name r).toList :=
  begins_of_isQualifiedName (hs.named r hr)

theorem Style.TellsApart.readAlike {r r' : ClassRef} (hr : known r) (hr' : known r') :
    ReadAlike (Begins (isWordChar · = false)) (s.names.name r).toList (s.names.name r').toList
      (r = r') :=
  (ReadAlike.words (isWordChar_of_isQualifiedName (hs.named r hr))
    (isWordChar_of_isQualifiedName (hs.named r' hr'))).imp
    fun h => hs.distinct r r' hr hr' (String.toList_inj.mp h)

end Words

section Chains

/-- The expression that all calls of a chain go back to. -/
def Expr.base : Expr → Expr
  | .call (some target) _ _ => target.base
  | e => e

/-- The calls of a chain, the innermost first. -/
def Expr.links : Expr → List (String × List Expr)
  | .call (some target) method args => target.links ++ [(method, args)]
  | _ => []

def Expr.linked (e : Expr) (links : List (String × List Expr)) : Expr :=
  links.foldl (fun target link => .call (some target) link.1 link.2) e

/-- An expression as the target of a call. -/
def Expr.operand (s : Style) (level : Nat) (e : Expr) : String :=
  if e.isCast then "(" ++ e.print s level ++ ")" else e.print s level

theorem Expr.operand_of_isCast_eq_false {s : Style} {level : Nat} {e : Expr}
    (h : e.isCast = false) : e.operand s level = e.print s level := by
  rw [Expr.operand, h, if_neg Bool.false_ne_true]

/-- The text of a call without its target. -/
def callText (s : Style) (level : Nat) (call : String × List Expr) : List Char :=
  call.1.toList ++ ['('] ++
    [',', ' '].intercalate (call.2.map fun e => (e.print s level).toList) ++ [')']

theorem Expr.links_base : ∀ e : Expr, e.base.links = []
  | .call (some target) _ _ => Expr.links_base target
  | .call none _ _ | .ident _ | .int _ | .super | .cast _ _ | .new _ _ => rfl

theorem toList_printCall (s : Style) (level : Nat) (method : String) (args : List Expr) :
    (method ++ "(" ++ ", ".intercalate (Expr.printAll s level args) ++ ")").toList =
      callText s level (method, args) := by
  have hargs : (Expr.printAll s level args).map String.toList =
      args.map fun e => (e.print s level).toList := by
    rw [Expr.printAll_eq_map, List.map_map, Function.comp_def]
  simp only [String.toList_append, String.toList_intercalate, hargs]
  rfl

/-- A chain is printed as the expression that it goes back to with its calls behind. -/
theorem Expr.operand_eq (s : Style) (level : Nat) : ∀ e : Expr,
    (e.operand s level).toList =
      (e.base.operand s level).toList ++ e.links.flatMap fun link => '.' :: callText s level link
  | .call (some target) method args => by
    have hprint : (Expr.call (some target) method args).operand s level =
        target.operand s level ++ "." ++
          (method ++ "(" ++ ", ".intercalate (Expr.printAll s level args) ++ ")") := by
      simp only [Expr.operand, Expr.isCast, Expr.print, String.append_assoc]
      rfl
    rw [hprint, String.toList_append, String.toList_append, toList_printCall,
      Expr.operand_eq s level target, Expr.base, Expr.links, List.flatMap_append, List.append_assoc,
      List.append_assoc]
    simp
  | .call none _ _ | .ident _ | .int _ | .super | .cast _ _ | .new _ _ => by
    simp [Expr.base, Expr.links]

theorem Expr.regroup_eq_linked (group : List (List Statement) → List (List Statement)) :
    ∀ e : Expr, e.regroup group = (e.base.regroup group).linked
      (e.links.map fun link => (link.1, link.2.map (Expr.regroup group)))
  | .call (some target) method args => by
    rw [Expr.regroup, Expr.regroup_eq_linked group target, Expr.base, Expr.links, List.map_append,
      Expr.linked, Expr.linked, List.foldl_append, Expr.regroupAll_eq_map]
    rfl
  | .call none _ _ | .ident _ | .int _ | .super | .cast _ _ | .new _ _ => rfl

variable {known : ClassRef → Prop}

theorem Expr.spelled_base : ∀ {e : Expr}, Spelled known e.names e.refs →
    Spelled known e.base.names e.base.refs
  | .call (some target) _ _, h => Expr.spelled_base (e := target) (spelled_append.mp h).1
  | .call none _ _, h | .ident _, h | .int _, h | .super, h | .cast _ _, h | .new _ _, h => h

theorem Expr.spelled_links : ∀ {e : Expr}, Spelled known e.names e.refs →
    ∀ link ∈ e.links, isIdentifier link.1 = true ∧ ∀ a ∈ link.2, Spelled known a.names a.refs
  | .call (some _) _ _, h => by
    obtain ⟨htarget, hcall⟩ := spelled_append.mp h
    obtain ⟨hmethod, hargs⟩ := spelled_name.mp hcall
    rw [Expr.links, List.forall_mem_append, List.forall_mem_singleton]
    exact ⟨Expr.spelled_links htarget, hmethod, Expr.spelled_all hargs⟩
  | .call none _ _, _ | .ident _, _ | .int _, _ | .super, _ | .cast _ _, _ | .new _ _, _ => nofun

end Chains

section Forms

/-- The forms that the beginning of an expression can have. -/
inductive Form
  | group
  | number
  | super
  | new
  | call
  | ident
  deriving DecidableEq

/-- The form of a text, as its first word and the character behind it show. -/
def formOf : List Char → Form
  | [] => .ident
  | c :: cs =>
    if c = '(' then .group
    else if c.isDigit || c == '-' then .number
    else
      let word := (c :: cs).takeWhile isIdentifierPart
      if word = "super".toList then .super
      else if word = "new".toList then .new
      else if ((c :: cs).dropWhile isIdentifierPart).head? = some '(' then .call
      else .ident

def Expr.form : Expr → Form
  | .ident _ => .ident
  | .int _ => .number
  | .super => .super
  | .call .. => .call
  | .cast .. => .group
  | .new .. => .new

theorem isDigit_of_isIdentifierStart {c : Char} (h : isIdentifierStart c = true) :
    c.isDigit = false := by
  cases hdigit : c.isDigit with
  | false => rfl
  | true =>
    -- letters and digits are ranges of code points
    have hrange : (decide (c.val ≥ 48) && decide (c.val ≤ 57)) = true := hdigit
    have hstart : (decide (c.val ≥ 65 ∧ c.val ≤ 90) ||
        (decide (c.val ≥ 97) && decide (c.val ≤ 122)) || c == '_' || c == '$') = true := h
    simp only [Bool.or_eq_true, Bool.and_eq_true, decide_eq_true_eq, beq_iff_eq] at hrange hstart
    rcases hstart with ((hupper | hlower) | rfl) | rfl
    · grind
    · grind
    · revert hdigit
      decide
    · revert hdigit
      decide

theorem formOf_word {word rest : List Char} (hword : Begins (isIdentifierStart · = true) word)
    (hparts : ∀ c ∈ word, isIdentifierPart c = true)
    (hrest : Begins (isIdentifierPart · = false) rest) :
    formOf (word ++ rest) =
      if word = "super".toList then .super
      else if word = "new".toList then .new
      else if rest.head? = some '(' then .call
      else .ident := by
  have htake := takeWhile_word hparts hrest
  have hdrop := dropWhile_word hparts hrest
  obtain ⟨c, cs, rfl, hc⟩ := hword
  have hparen : c ≠ '(' := by
    rintro rfl
    revert hc
    decide
  have hnumber : (c.isDigit || c == '-') = false := by
    rw [isDigit_of_isIdentifierStart hc, Bool.false_or, beq_eq_false_iff_ne]
    rintro rfl
    revert hc
    decide
  rw [List.cons_append, formOf, ← List.cons_append, htake, hdrop, if_neg hparen, hnumber,
    if_neg Bool.false_ne_true]

/-- A name is no reserved word. -/
theorem formOf_name {name : String} {rest : List Char} (h : isIdentifier name = true)
    (hrest : Begins (isIdentifierPart · = false) rest) :
    formOf (name.toList ++ rest) = if rest.head? = some '(' then .call else .ident := by
  obtain ⟨hword, -⟩ := isIdentifier_iff.mp h
  obtain ⟨c, cs, hname, hc, -⟩ := id hword
  have hne {word : String} (hmem : word ∈ reservedWords) : name.toList ≠ word.toList :=
    fun he => ne_reserved_of_isIdentifier h hmem (String.toList_inj.mp he)
  rw [formOf_word ⟨c, cs, hname, hc⟩ (fun _ hd => hword.isIdentifierPart_of_mem hd) hrest,
    if_neg (hne (by decide)), if_neg (hne (by decide))]

variable {s : Style} {known : ClassRef → Prop} {level : Nat}

theorem formOf_operand {e : Expr} (hlinks : e.links = []) (h : Spelled known e.names e.refs)
    {u : List Char} (hu : Begins EndsOperand u) :
    formOf ((e.operand s level).toList ++ u) = e.form := by
  have hends : Begins (isIdentifierPart · = false) u :=
    hu.imp fun _ hc => hc.not_isIdentifierPart
  cases e with
  | ident name =>
    have hne : u.head? ≠ some '(' := by
      obtain ⟨c, cs, rfl, hc⟩ := hu
      rcases hc with rfl | rfl | rfl | rfl <;> simp
    have hform := formOf_name (h.names name List.mem_cons_self) hends
    rwa [if_neg hne] at hform
  | int value =>
    obtain ⟨c, cs, hvalue, hc, -⟩ := exists_toString_eq_cons value
    have hparen : c ≠ '(' := by
      rintro rfl
      revert hc
      decide
    have hnumber : (c.isDigit || c == '-') = true := by
      rcases hc with hc | rfl
      · rw [hc, Bool.true_or]
      · decide
    change formOf ((toString value).toList ++ u) = _
    rw [hvalue, List.cons_append, formOf, if_neg hparen, if_pos hnumber]
    rfl
  | super =>
    have hword : Begins (isIdentifierStart · = true) "super".toList :=
      ⟨'s', "uper".toList, rfl, by decide⟩
    have hform := formOf_word hword (List.all_eq_true.mp (by decide)) hends
    rwa [if_pos rfl] at hform
  | call target method args =>
    cases target with
    | some target => simp [Expr.links] at hlinks
    | none =>
      have hparen : Begins (isIdentifierPart · = false) ('(' :: ([',', ' '].intercalate
          (args.map fun e => (e.print s level).toList) ++ [')'] ++ u)) :=
        ⟨'(', _, rfl, by decide⟩
      have hform := formOf_name (h.names method List.mem_cons_self) hparen
      rw [List.head?_cons, if_pos rfl] at hform
      change formOf (((Expr.call none method args).print s level).toList ++ u) = _
      rw [Expr.print, toList_printCall, callText]
      simp only [List.append_assoc] at hform ⊢
      exact hform
  | cast type value =>
    change formOf (("(" ++ (Expr.cast type value).print s level ++ ")").toList ++ u) = _
    simp only [String.toList_append, List.append_assoc]
    rfl
  | new type methods =>
    have hblank (rest : List Char) : Begins (isIdentifierPart · = false) (" ".toList ++ rest) :=
      ⟨' ', rest, rfl, by decide⟩
    have hword : Begins (isIdentifierStart · = true) "new".toList :=
      ⟨'n', "ew".toList, rfl, by decide⟩
    have hnew : "new " = "new" ++ " " := rfl
    change formOf (((Expr.new type methods).print s level).toList ++ u) = _
    rw [Expr.print, hnew]
    simp only [String.toList_append, List.append_assoc]
    rw [formOf_word hword (List.all_eq_true.mp (by decide)) (hblank _), if_neg (by decide),
      if_pos rfl]
    rfl

end Forms

/-- An expression that no other one is taken for, where something follows that ends it. -/
def Expr.IsReadable (s : Style) (known : ClassRef → Prop) (e : Expr) : Prop :=
  ∀ (level : Nat) (e' : Expr), Spelled known e.names e.refs → Spelled known e'.names e'.refs →
    ReadAlike (Begins EndsExpr) (e.print s level).toList (e'.print s level).toList
      (e.regroup dropEmptySections = e'.regroup dropEmptySections)

/-- An expression, no call with a target, that no other such one is taken for. -/
def Expr.IsReadableOperand (s : Style) (known : ClassRef → Prop) (e : Expr) : Prop :=
  ∀ (level : Nat) (e' : Expr), e'.links = [] → Spelled known e.names e.refs →
    Spelled known e'.names e'.refs →
    ReadAlike (Begins EndsOperand) (e.operand s level).toList (e'.operand s level).toList
      (e.regroup dropEmptySections = e'.regroup dropEmptySections)

section Exprs

variable {s : Style} {known : ClassRef → Prop} {level : Nat}

/-- What stands in the parentheses of a call or of a method. -/
theorem readAlike_commas {α β : Type} {f : α → List Char} {g : α → β} {as bs : List α}
    (hread : ∀ a ∈ as, ∀ b ∈ bs, ReadAlike (Begins EndsExpr) (f a) (f b) (g a = g b))
    (hstart : ∀ a ∈ as ++ bs, Begins StartsExpr (f a)) :
    ReadAlike (Begins (· = ')')) ([',', ' '].intercalate (as.map f))
      ([',', ' '].intercalate (bs.map f)) (as.map g = bs.map g) := by
  apply ReadAlike.intercalate hread
  · exact fun u => ⟨',', ' ' :: u, rfl, .inl rfl⟩
  · exact fun u hu => hu.imp fun c hc => .inr (.inl hc)
  · rintro a ha u ⟨d, ds, heq, rfl⟩
    obtain ⟨c, cs, hfirst, hc⟩ := hstart a ha
    rw [hfirst, List.cons_append, List.cons.injEq] at heq
    exact absurd (heq.1 ▸ hc) (by decide)
  · rintro u ⟨c, cs, heq, rfl⟩
    simp at heq

theorem readAlike_call (level : Nat) {call call' : String × List Expr}
    (hmethod : isIdentifier call.1 = true) (hmethod' : isIdentifier call'.1 = true)
    (hread : ∀ a ∈ call.2, a.IsReadable s known)
    (hargs : ∀ a ∈ call.2, Spelled known a.names a.refs)
    (hargs' : ∀ a ∈ call'.2, Spelled known a.names a.refs) :
    ReadAlike Anything (callText s level call) (callText s level call')
      (call.1 = call'.1 ∧ call.2.map (Expr.regroup dropEmptySections) =
        call'.2.map (Expr.regroup dropEmptySections)) := by
  have hlist := readAlike_commas (f := fun e => (e.print s level).toList)
    (fun a ha b hb => hread a ha level b (hargs a ha) (hargs' b hb))
    fun a ha => Expr.begins_print s level ((List.mem_append.mp ha).elim (hargs a) (hargs' a))
  have hopen := (readAlike_name hmethod hmethod').closed ['('] fun u => ⟨'(', u, rfl, by decide⟩
  exact (hopen.andThen hlist).closed [')'] fun u => ⟨')', u, rfl, rfl⟩

/-- It is enough to tell an operand from those that begin in the same form. -/
theorem Expr.IsReadableOperand.of_form {e : Expr} (hlinks : e.links = [])
    (h : ∀ (level : Nat) (e' : Expr), e'.links = [] → e'.form = e.form →
      Spelled known e.names e.refs → Spelled known e'.names e'.refs →
      ReadAlike (Begins EndsOperand) (e.operand s level).toList (e'.operand s level).toList
        (e.regroup dropEmptySections = e'.regroup dropEmptySections)) :
    e.IsReadableOperand s known := by
  intro level e' hlinks' hspelled hspelled' u v hu hv huv
  have hform : e'.form = e.form := by
    rw [← formOf_operand hlinks hspelled hu, huv, formOf_operand hlinks' hspelled' hv]
  exact h level e' hlinks' hform hspelled hspelled' u v hu hv huv

theorem isReadableOperand_ident (name : String) : (Expr.ident name).IsReadableOperand s known := by
  apply Expr.IsReadableOperand.of_form rfl
  intro level e' _ hform h h'
  cases e' with
  | ident name' =>
    have hname := readAlike_name (h.names name List.mem_cons_self)
      (h'.names name' List.mem_cons_self)
    exact (hname.of_next fun u hu => Begins.imp hu fun c hc => hc.not_isIdentifierPart).imp
      fun he => by rw [he]
  | _ => cases hform

theorem isReadableOperand_int (value : Int) : (Expr.int value).IsReadableOperand s known := by
  apply Expr.IsReadableOperand.of_form rfl
  intro level e' _ hform _ _
  cases e' with
  | int value' => exact (readAlike_int value value').imp fun he => by rw [he]
  | _ => cases hform

theorem isReadableOperand_super : Expr.super.IsReadableOperand s known := by
  apply Expr.IsReadableOperand.of_form rfl
  intro level e' _ hform _ _
  cases e' with
  | super => exact (ReadAlike.refl _).imp fun _ => rfl
  | _ => cases hform

theorem isReadableOperand_call {method : String} {args : List Expr}
    (hread : ∀ a ∈ args, a.IsReadable s known) :
    (Expr.call none method args).IsReadableOperand s known := by
  apply Expr.IsReadableOperand.of_form rfl
  intro level e' hlinks hform h h'
  cases e' with
  | call target' method' args' =>
    cases target' with
    | some target' => simp [Expr.links] at hlinks
    | none =>
      obtain ⟨hmethod, hargs⟩ := spelled_name.mp h
      obtain ⟨hmethod', hargs'⟩ := spelled_name.mp h'
      have hcall : ReadAlike Anything (callText s level (method, args))
          (callText s level (method', args')) _ :=
        readAlike_call level hmethod hmethod' hread (Expr.spelled_all hargs)
          (Expr.spelled_all hargs')
      rw [← toList_printCall, ← toList_printCall] at hcall
      apply (hcall.of_next fun _ _ => trivial).imp
      rintro ⟨rfl, hregroup⟩
      rw [Expr.regroup, Expr.regroup, Expr.regroupAll_eq_map, Expr.regroupAll_eq_map, hregroup]
  | _ => cases hform

/-- In parentheses a cast is read like any expression. -/
theorem isReadableOperand_cast {type : ClassRef} {value : Expr}
    (hread : (Expr.cast type value).IsReadable s known) :
    (Expr.cast type value).IsReadableOperand s known := by
  apply Expr.IsReadableOperand.of_form rfl
  intro level e' _ hform h h'
  cases e' with
  | cast type' value' =>
    have hinner := (hread level _ h h').closed ")".toList fun u => ⟨')', u, rfl, .inr (.inl rfl)⟩
    have hgroup : ReadAlike (Begins EndsOperand) _ _ _ :=
      (hinner.behind "(".toList).of_next fun _ _ => trivial
    rw [← List.append_assoc, ← List.append_assoc] at hgroup
    simpa only [Expr.operand, Expr.isCast, if_true, String.toList_append] using hgroup
  | _ => cases hform

/-- A cast shows by what is in its parentheses, a name and no second parenthesis. -/
def opensCast : List Char → Bool
  | '(' :: c :: _ => c != '('
  | _ => false

theorem opensCast_of_formOf {text : List Char} (h : formOf text ≠ .group) :
    opensCast text = false := by
  cases text with
  | nil => rfl
  | cons c cs =>
    by_cases hc : c = '('
    · rw [formOf, if_pos hc] at h
      exact absurd rfl h
    · cases cs with
      | nil => simp [opensCast]
      | cons d ds => simp [opensCast, hc]

/-- Behind the expression that a chain goes back to comes a call or the end. -/
theorem Expr.begins_links (e : Expr) {u : List Char} (hu : Begins EndsExpr u) :
    Begins EndsOperand ((e.links.flatMap fun link => '.' :: callText s level link) ++ u) := by
  cases e.links with
  | nil => exact hu.imp fun _ hc => .inr hc
  | cons link links => exact ⟨'.', _, rfl, .inl rfl⟩

theorem opensCast_operand (s : Style) (level : Nat) {e : Expr}
    (h : Spelled known e.names e.refs) {u : List Char} (hu : Begins EndsExpr u) :
    opensCast ((e.operand s level).toList ++ u) = false := by
  rw [Expr.operand_eq, List.append_assoc]
  by_cases hform : e.base.form = .group
  · cases hbase : e.base with
    | cast type value =>
      simp only [Expr.operand, Expr.isCast, if_true, Expr.print, String.toList_append,
        List.append_assoc]
      rfl
    | _ =>
      rw [hbase] at hform
      cases hform
  · apply opensCast_of_formOf
    rwa [formOf_operand e.links_base (Expr.spelled_base h) (e.begins_links hu)]

variable (hs : s.TellsApart known)

include hs

theorem opensCast_print {e : Expr} (h : Spelled known e.names e.refs) {u : List Char}
    (hu : Begins EndsExpr u) :
    opensCast ((e.print s level).toList ++ u) = e.isCast := by
  cases e with
  | cast type value =>
    obtain ⟨c, cs, hname, hc, -⟩ := exists_of_isQualifiedName
      (hs.named type (spelled_class.mp h).1)
    have hparen : (c != '(') = true := by
      rw [bne_iff_ne]
      rintro rfl
      revert hc
      decide
    simp only [Expr.print, String.toList_append, List.append_assoc, hname]
    exact hparen
  | _ => exact opensCast_operand s level h hu

theorem isReadable_cast {type : ClassRef} {value : Expr} (hread : value.IsReadable s known) :
    (Expr.cast type value).IsReadable s known := by
  intro level e' h h' u v hu hv huv
  have hcast : e'.isCast = true := by
    rw [← opensCast_print hs h' hv, ← huv, opensCast_print hs h hu]
    rfl
  cases e' with
  | cast type' value' =>
    obtain ⟨htype, hvalue⟩ := spelled_class.mp h
    obtain ⟨htype', hvalue'⟩ := spelled_class.mp h'
    have hhead := ((hs.readAlike htype htype').behind "(".toList).closed ") ".toList
      fun u => ⟨')', ' ' :: u, rfl, by decide⟩
    have hboth := hhead.andThen (hread level value' hvalue hvalue')
    simp only [Expr.print, String.toList_append] at huv
    obtain ⟨⟨rfl, hregroup⟩, hend⟩ := hboth u v hu hv huv
    rw [Expr.regroup, Expr.regroup, hregroup]
    exact ⟨rfl, hend⟩
  | _ => cases hcast

/-- A chain is read from the expression that it goes back to on, call by call. -/
theorem isReadable_of_parts {e : Expr} (hcast : e.isCast = false)
    (hbase : e.base.IsReadableOperand s known)
    (hlinks : ∀ link ∈ e.links, ∀ a ∈ link.2, a.IsReadable s known) : e.IsReadable s known := by
  intro level e' h h' u v hu hv huv
  have hcast' : e'.isCast = false := by
    rw [← opensCast_print hs h' hv, ← huv, opensCast_print hs h hu, hcast]
  have hcalls : ReadAlike (Begins EndsExpr)
      (e.links.flatMap fun link => '.' :: callText s level link)
      (e'.links.flatMap fun link => '.' :: callText s level link)
      (e.links.map (fun link => (link.1, link.2.map (Expr.regroup dropEmptySections))) =
        e'.links.map fun link => (link.1, link.2.map (Expr.regroup dropEmptySections))) := by
    apply ReadAlike.flatMap_of_closed
    · intro link hlink link' hlink'
      obtain ⟨hmethod, hargs⟩ := Expr.spelled_links h link hlink
      obtain ⟨hmethod', hargs'⟩ := Expr.spelled_links h' link' hlink'
      have hcall := readAlike_call level hmethod hmethod' (hlinks link hlink) hargs hargs'
      exact (hcall.behind ['.']).imp fun hsame => Prod.ext hsame.1 hsame.2
    · rintro link - u ⟨c, cs, heq, hc⟩
      rw [List.cons_append, List.cons.injEq] at heq
      exact absurd (heq.1 ▸ hc) (by decide)
  have hchain := (hbase level e'.base e'.links_base (Expr.spelled_base h)
    (Expr.spelled_base h')).append hcalls (fun _ => e.begins_links) (fun _ => e'.begins_links)
  rw [← Expr.operand_of_isCast_eq_false hcast, ← Expr.operand_of_isCast_eq_false hcast',
    Expr.operand_eq, Expr.operand_eq s level e'] at huv
  obtain ⟨⟨hbases, hlists⟩, hend⟩ := hchain u v hu hv huv
  rw [Expr.regroup_eq_linked, Expr.regroup_eq_linked _ e', hbases, hlists]
  exact ⟨rfl, hend⟩

end Exprs

end ViewWiring.Code
