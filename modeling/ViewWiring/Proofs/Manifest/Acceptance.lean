import ViewWiring.Manifest
import Mathlib.Data.List.Basic

namespace ViewWiring

section Checks

variable {ε α β : Type}

theorem bind_eq_ok_iff {x : Except ε α} {f : α → Except ε β} {b : β} :
    x >>= f = .ok b ↔ ∃ a, x = .ok a ∧ f a = .ok b := by
  cases x with
  | error e => simp [bind, Except.bind]
  | ok a => simp [bind, Except.bind]

theorem map_eq_ok_iff {x : Except ε α} {f : α → β} {b : β} :
    x.map f = .ok b ↔ ∃ a, x = .ok a ∧ b = f a := by
  cases x <;> simp [Except.map, eq_comm]

/-- A check that lets through exactly what is sound, and reads it as `read` does. -/
def ReadsSound (check : α → Except ε β) (sound : α → Prop) (read : α → β) : Prop :=
  ∀ a b, check a = .ok b ↔ sound a ∧ b = read a

namespace ReadsSound

variable {check : α → Except ε β} {sound : α → Prop} {read : α → β}

theorem exists_iff (h : ReadsSound check sound read) (a : α) :
    (∃ b, check a = .ok b) ↔ sound a := by
  constructor
  · rintro ⟨b, hb⟩
    exact ((h a b).mp hb).1
  · intro ha
    exact ⟨read a, (h a (read a)).mpr ⟨ha, rfl⟩⟩

/-- A list is let through if each of its entries is, and is read entry by entry. -/
theorem list (h : ReadsSound check sound read) :
    ReadsSound (List.mapM check) (fun as => ∀ a ∈ as, sound a) (List.map read) := by
  intro as
  induction as with
  | nil => simp [pure, Except.pure, eq_comm]
  | cons a as ih =>
    intro bs
    simp only [List.mapM_cons, bind_eq_ok_iff, h a, ih, pure, Except.pure, Except.ok.injEq,
      List.forall_mem_cons, List.map_cons]
    constructor
    · rintro ⟨b, ⟨ha, rfl⟩, bs', ⟨has, rfl⟩, rfl⟩
      exact ⟨⟨ha, has⟩, rfl⟩
    · rintro ⟨⟨ha, has⟩, rfl⟩
      exact ⟨read a, ⟨ha, rfl⟩, as.map read, ⟨has, rfl⟩, rfl⟩

theorem option (h : ReadsSound check sound read) :
    ReadsSound (Option.mapM check) (fun a? => ∀ a ∈ a?, sound a) (Option.map read) := by
  intro a? b?
  cases a? with
  | none =>
    have hnone : Option.mapM check none = .ok none := rfl
    simp [hnone, eq_comm]
  | some a =>
    have hmap : Option.mapM check (some a) = (check a).map some := rfl
    simp only [hmap, map_eq_ok_iff, h a, Option.mem_some_iff, forall_eq', Option.map_some]
    constructor
    · rintro ⟨b, ⟨ha, rfl⟩, rfl⟩
      exact ⟨ha, rfl⟩
    · rintro ⟨ha, rfl⟩
      exact ⟨read a, ⟨ha, rfl⟩, rfl⟩

end ReadsSound

end Checks

/-- What a type may be written as: void, a primitive type or a class. -/
def IsTypeText (text : String) : Prop :=
  text = "void" ∨ (∃ p : Primitive, p.name = text) ∨ isQualifiedName text = true

namespace Manifest

theorem typeName_reads :
    ReadsSound typeName (fun name => isQualifiedName name = true) TypeName.mk := by
  intro name b
  by_cases h : isQualifiedName name = true
  · simp [typeName, h, eq_comm]
  · simp [typeName, h]

theorem typeRef_reads : ReadsSound typeRef IsTypeText TypeRef.ofText := by
  intro text b
  by_cases hv : text = "void"
  · subst hv
    have hsound : IsTypeText "void" := .inl rfl
    simp [typeRef, TypeRef.ofText, hsound, eq_comm]
  cases hp : Primitive.ofName? text with
  | some p =>
    have hname : p.name = text := by simpa using List.find?_some hp
    have hsound : IsTypeText text := .inr (.inl ⟨p, hname⟩)
    simp [typeRef, TypeRef.ofText, hv, hp, hsound, eq_comm]
  | none =>
    have hnot : ¬∃ p : Primitive, p.name = text := by
      rintro ⟨p, rfl⟩
      rw [Primitive.ofName?_name] at hp
      cases hp
    by_cases h : isQualifiedName text = true
    · simp [typeRef, TypeRef.ofText, IsTypeText, hv, hp, typeName, h, Except.map, eq_comm]
    · simp [typeRef, TypeRef.ofText, IsTypeText, hv, hp, hnot, typeName, h, Except.map]

end Manifest

namespace MemberEntry

variable (e : MemberEntry)

/-- All types that a member is written with. -/
def typeTexts : List String := e.type.toList ++ e.params.getD [] ++ e.returns.toList

structure WellFormed : Prop where
  name : isIdentifier e.name = true
  view_hook : e.view = none ∨ e.afterViews = false
  view_click : e.view = none ∨ e.click = none
  hook_click : e.afterViews = false ∨ e.click = none
  clicked : e.click ≠ some []
  field : e.kind = .field → e.type ≠ none ∧ e.params = none ∧ e.returns = none
  method : e.kind = .method → e.type = none
  types : ∀ text ∈ e.typeTexts, IsTypeText text

/-- The directive, of which a well-formed entry has one at most. -/
def declaredDirective : Option Directive :=
  ((e.view.map .view).or (if e.afterViews then some .afterViews else none)).or
    (e.click.map .click)

/-- The shape with the types as they are written; a method without a result returns `void`. -/
def declaredShape : Shape :=
  match e.kind, e.type with
  | .field, some type => .field (.ofText type)
  | _, _ => .method ((e.params.getD []).map .ofText) (.ofText (e.returns.getD "void"))

/-- The member that a well-formed entry stands for. -/
def declared : Member := ⟨e.name, e.declaredShape, e.modifiers, e.declaredDirective⟩

variable {e} (owner : TypeName)

theorem directive_eq_ok_iff {d : Option Directive} :
    e.directive owner = .ok d ↔
      ((e.view = none ∨ e.afterViews = false) ∧ (e.view = none ∨ e.click = none) ∧
        (e.afterViews = false ∨ e.click = none) ∧ e.click ≠ some []) ∧ d = e.declaredDirective := by
  by_cases hclick : e.click = some []
  · simp [directive, hclick]
  · cases hv : e.view <;> cases ha : e.afterViews <;> cases hc : e.click
    all_goals
      rw [hc] at hclick
      simp [directive, directives, declaredDirective, hv, ha, hc, hclick, eq_comm]

theorem shape_eq_ok_iff {s : Shape} :
    e.shape owner = .ok s ↔
      ((e.kind = .field → e.type ≠ none ∧ e.params = none ∧ e.returns = none) ∧
        (e.kind = .method → e.type = none) ∧ ∀ text ∈ e.typeTexts, IsTypeText text) ∧
      s = e.declaredShape := by
  cases hkind : e.kind with
  | field =>
    cases htype : e.type with
    | none => simp [shape, hkind, htype]
    | some type =>
      cases hparams : e.params <;> cases hreturns : e.returns
      all_goals
        simp [shape, declaredShape, typeTexts, hkind, htype, hparams, hreturns, map_eq_ok_iff,
          Manifest.typeRef_reads _ _]
  | method =>
    cases htype : e.type with
    | some type => simp [shape, hkind, htype]
    | none =>
      have hvoid : IsTypeText "void" := .inl rfl
      have hreturns : IsTypeText (e.returns.getD "void") ↔
          ∀ text ∈ e.returns.toList, IsTypeText text := by
        cases e.returns <;> simp [hvoid]
      have htexts : (∀ text ∈ e.typeTexts, IsTypeText text) ↔
          (∀ text ∈ e.params.getD [], IsTypeText text) ∧ IsTypeText (e.returns.getD "void") := by
        rw [typeTexts, htype, Option.toList_none, List.nil_append, List.forall_mem_append, hreturns]
      have hdeclared : e.declaredShape = .method ((e.params.getD []).map .ofText)
          (.ofText (e.returns.getD "void")) := by
        rw [declaredShape, hkind]
      have hsteps := fun params => Manifest.typeRef_reads.list (e.params.getD []) params
      simp only [shape, hkind, htype, htexts, hdeclared, bind_eq_ok_iff, hsteps,
        Manifest.typeRef_reads _ _, Except.ok.injEq]
      constructor
      · rintro ⟨params, ⟨hp, rfl⟩, returns, ⟨hr, rfl⟩, rfl⟩
        exact ⟨⟨nofun, fun _ => trivial, hp, hr⟩, rfl⟩
      · rintro ⟨⟨-, -, hp, hr⟩, rfl⟩
        exact ⟨_, ⟨hp, rfl⟩, _, ⟨hr, rfl⟩, rfl⟩

theorem toMember_reads : ReadsSound (toMember owner) WellFormed declared := by
  intro e m
  by_cases hname : isIdentifier e.name = true
  · rw [toMember, if_pos hname]
    simp only [bind_eq_ok_iff, directive_eq_ok_iff, shape_eq_ok_iff, Except.ok.injEq]
    constructor
    · rintro ⟨d, ⟨⟨hvh, hvc, hhc, hclick⟩, rfl⟩, s, ⟨⟨hf, hm, ht⟩, rfl⟩, rfl⟩
      exact ⟨⟨hname, hvh, hvc, hhc, hclick, hf, hm, ht⟩, rfl⟩
    · rintro ⟨h, rfl⟩
      exact ⟨_, ⟨⟨h.view_hook, h.view_click, h.hook_click, h.clicked⟩, rfl⟩, _,
        ⟨⟨h.field, h.method, h.types⟩, rfl⟩, rfl⟩
  · have hnot : ¬e.WellFormed := fun h => hname h.name
    simp [toMember, hname, hnot]

end MemberEntry

/-- A name lies in a package if the package and a dot begin it. -/
def LiesIn (name package : String) : Prop := ∃ rest, name = package ++ "." ++ rest

namespace ComponentEntry

structure WellFormed (e : ComponentEntry) : Prop where
  name : isQualifiedName e.name = true
  members : ∀ m ∈ e.members, m.WellFormed
  package : ∀ package ∈ e.package,
    package = "" ∨ isQualifiedName package = true ∧ LiesIn e.name package
  base : ∀ base ∈ e.base, isQualifiedName base = true

/-- The component that a well-formed entry stands for. -/
def declared (e : ComponentEntry) : Component where
  name := ⟨e.name⟩
  package := e.package.getD (TypeName.package ⟨e.name⟩)
  kind := e.kind
  base := e.base.map TypeName.mk
  layout := e.layout
  members := e.members.map MemberEntry.declared

theorem prefix_iff_liesIn {name package : String} :
    package.toList ++ ['.'] <+: name.toList ↔ LiesIn name package := by
  constructor
  · rintro ⟨rest, h⟩
    refine ⟨String.ofList rest, ?_⟩
    rw [← String.toList_inj, ← h]
    simp
  · rintro ⟨rest, rfl⟩
    exact ⟨rest.toList, by simp⟩

theorem packageOf_eq_ok_iff {name : TypeName} {package : Option String} {p : String} :
    packageOf name package = .ok p ↔
      (∀ given ∈ package, given = "" ∨ isQualifiedName given = true ∧ LiesIn name.text given) ∧
        p = package.getD name.package := by
  cases package with
  | none => simp [packageOf, @eq_comm _ p]
  | some given =>
    by_cases hempty : given = ""
    · simp [packageOf, hempty]
    · by_cases hname : isQualifiedName given = true
      · by_cases hin : LiesIn name.text given
        · simp [packageOf, hempty, hname, prefix_iff_liesIn, hin, @eq_comm _ p]
        · simp [packageOf, hempty, hname, prefix_iff_liesIn, hin]
      · simp [packageOf, hempty, hname]

theorem toComponent_reads : ReadsSound toComponent WellFormed declared := by
  intro e c
  have hmembers := fun owner => (MemberEntry.toMember_reads owner).list e.members
  simp only [toComponent, bind_eq_ok_iff, Manifest.typeName_reads _ _, hmembers _ _,
    packageOf_eq_ok_iff, Manifest.typeName_reads.option _ _, Except.ok.injEq]
  constructor
  · rintro ⟨_, ⟨hname, rfl⟩, _, ⟨hmembers, rfl⟩, _, ⟨hpackage, rfl⟩, _, ⟨hbase, rfl⟩, rfl⟩
    exact ⟨⟨hname, hmembers, hpackage, hbase⟩, rfl⟩
  · rintro ⟨h, rfl⟩
    exact ⟨_, ⟨h.name, rfl⟩, _, ⟨h.members, rfl⟩, _, ⟨h.package, rfl⟩, _, ⟨h.base, rfl⟩, rfl⟩

end ComponentEntry

namespace TypeEntry

structure WellFormed (e : TypeEntry) : Prop where
  name : isQualifiedName e.name = true
  members : ∀ m ∈ e.members, m.WellFormed
  base : isQualifiedName e.base = true

def declaredParent (e : TypeEntry) : TypeName × TypeName := (⟨e.name⟩, ⟨e.base⟩)

/-- The members that an entry lists for its type; one that lists none says nothing of them. -/
def declaredMembers? (e : TypeEntry) : Option (TypeName × List Member) :=
  if e.members.isEmpty then none else some (⟨e.name⟩, e.members.map MemberEntry.declared)

/-- What is known of types once well-formed entries are added, of which later ones come first. -/
def addedTo (d : Declarations) (es : List TypeEntry) : Declarations where
  components := d.components
  parents := (es.map declaredParent).reverse ++ d.parents
  typeMembers := (es.filterMap declaredMembers?).reverse ++ d.typeMembers

theorem addTo_reads (d : Declarations) :
    ReadsSound (addTo d) WellFormed fun e => addedTo d [e] := by
  intro e d'
  have hmembers := fun owner => (MemberEntry.toMember_reads owner).list e.members
  have hadded : (if (e.members.map MemberEntry.declared).isEmpty then d.withType ⟨e.name⟩ ⟨e.base⟩
      else (d.withType ⟨e.name⟩ ⟨e.base⟩).withTypeMembers ⟨e.name⟩
        (e.members.map MemberEntry.declared)) = addedTo d [e] := by
    cases hm : e.members <;>
      simp [addedTo, declaredParent, declaredMembers?, Declarations.withType,
        Declarations.withTypeMembers, hm]
  simp only [addTo, bind_eq_ok_iff, Manifest.typeName_reads _ _, hmembers _ _, Except.ok.injEq]
  constructor
  · rintro ⟨_, ⟨hname, rfl⟩, _, ⟨hmembers, rfl⟩, _, ⟨hbase, rfl⟩, rfl⟩
    exact ⟨⟨hname, hmembers, hbase⟩, hadded⟩
  · rintro ⟨h, rfl⟩
    exact ⟨_, ⟨h.name, rfl⟩, _, ⟨h.members, rfl⟩, _, ⟨h.base, rfl⟩, hadded⟩

theorem foldlM_addTo_reads (d : Declarations) :
    ReadsSound (List.foldlM addTo d) (fun es => ∀ e ∈ es, e.WellFormed) (addedTo d) := by
  intro es
  induction es generalizing d with
  | nil => simp [addedTo, pure, Except.pure, @eq_comm _ d]
  | cons e es ih =>
    intro d'
    have hsteps : addedTo (addedTo d [e]) es = addedTo d (e :: es) := by
      cases h : e.declaredMembers? <;> simp [addedTo, h]
    simp only [List.foldlM_cons, bind_eq_ok_iff, addTo_reads d _ _, ih, List.forall_mem_cons]
    constructor
    · rintro ⟨_, ⟨he, rfl⟩, hes, rfl⟩
      exact ⟨⟨he, hes⟩, hsteps⟩
    · rintro ⟨⟨he, hes⟩, rfl⟩
      exact ⟨_, ⟨he, rfl⟩, hes, hsteps.symm⟩

end TypeEntry

namespace Manifest

structure WellFormed (m : Manifest) : Prop where
  components : ∀ e ∈ m.components, e.WellFormed
  types : ∀ e ∈ m.types, e.WellFormed

/-- The declarations that a well-formed manifest stands for. -/
def declared (m : Manifest) : Declarations :=
  TypeEntry.addedTo (.ofComponents (m.components.map ComponentEntry.declared)) m.types

theorem declarations_reads : ReadsSound declarations WellFormed declared := by
  intro m d
  simp only [declarations, bind_eq_ok_iff, ComponentEntry.toComponent_reads.list _ _,
    TypeEntry.foldlM_addTo_reads _ _ _]
  constructor
  · rintro ⟨_, ⟨hcomponents, rfl⟩, htypes, rfl⟩
    exact ⟨⟨hcomponents, htypes⟩, rfl⟩
  · rintro ⟨h, rfl⟩
    exact ⟨_, ⟨h.components, rfl⟩, h.types, rfl⟩

/-- Exactly the well-formed manifests are accepted, and of these every entry is read as what it
says, in the order of the document. -/
theorem accepts_wellFormed (m : Manifest) :
    ((∃ d, m.declarations = .ok d) ↔ m.WellFormed) ∧
      ∀ d, m.declarations = .ok d → d = m.declared :=
  ⟨declarations_reads.exists_iff m, fun d h => ((declarations_reads m d).mp h).2⟩

-- what a type lists is held to the same rules as what a component lists
example :
    let label : MemberEntry :=
      ⟨"new", .field, some "android.view.View", none, none, [], some 1, false, none⟩
    let manifest : Manifest := ⟨[], [⟨"a.Base", "android.app.Activity", [label]⟩]⟩
    manifest.declarations = .error (.memberName ⟨"a.Base"⟩ "new") := by
  decide +kernel

end Manifest

end ViewWiring
