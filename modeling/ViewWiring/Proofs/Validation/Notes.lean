import ViewWiring.Proofs.Validation.Rules

namespace ViewWiring

/-- The diagnostic with its kind, message and anchor alone. -/
def Diagnostic.withoutNotes (d : Diagnostic) : Diagnostic := { d with notes := [] }

namespace Member

/-- The fault without the note on why a class is no view. -/
def Fault.bare : Fault → Fault
  | fieldNotView type view _ => fieldNotView type view ""
  | handlerTakes type view _ => handlerTakes type view ""
  | f => f

theorem Fault.excludes_bare (policy : SignaturePolicy) (f : Fault) :
    f.bare.excludes policy = f.excludes policy := by
  cases policy <;> cases f <;> rfl

theorem Fault.diagnostic_bare (c : Component) (m : Member) (f : Fault) :
    (f.bare.diagnostic c m).withoutNotes = (f.diagnostic c m).withoutNotes := by
  cases f <;> rfl

/-- The class that must be a view for the member to be in order. -/
def viewClass? (m : Member) : Option TypeName :=
  match m.directive, m.shape with
  | some (.view _), .field type => type.declaredName?
  | some (.click _), .method [type] _ => type.declaredName?
  | _, _ => none

end Member

namespace Source

variable (source : Source) (config : Config)

/-- Why the class that must be a view for the member is none. -/
def viewNote (m : Member) : Option String :=
  m.viewClass?.bind fun name => (source.ascend config name config.platform.view).note

theorem notViewNote_eq_of_declaredName? {type : TypeRef} (h : type.declaredName? = none)
    (source' : Source) : source.notViewNote config type = source'.notViewNote config type := by
  cases type with
  | declared name => cases h
  | void | primitive => rfl

/-- Without such a class, the faults of a member are the same everywhere. -/
theorem memberFaults_eq_of_viewClass? {m : Member} (h : m.viewClass? = none) (source' : Source) :
    source.memberFaults config m = source'.memberFaults config m := by
  match hd : m.directive, hs : m.shape with
  | none, _ | some (.view _), .method _ _ | some .afterViews, .field _
  | some .afterViews, .method _ _ | some (.click _), .field _ => simp only [memberFaults, hd, hs]
  | some (.view _), .field type =>
    have htype : type.declaredName? = none := by simpa [Member.viewClass?, hd, hs] using h
    simp only [memberFaults, hd, hs, viewFieldFaults,
      source.notViewNote_eq_of_declaredName? config htype source']
  | some (.click _), .method [type] _ =>
    have htype : type.declaredName? = none := by simpa [Member.viewClass?, hd, hs] using h
    simp only [memberFaults, hd, hs, handlerParamFaults,
      source.notViewNote_eq_of_declaredName? config htype source']
  | some (.click _), .method [] _ | some (.click _), .method (_ :: _ :: _) _ =>
    simp only [memberFaults, hd, hs, handlerParamFaults]

end Source

namespace Member

/-- The faults of a member whatever the source, with the one set apart that depends on it: the note
decides whether it is there, and nothing else does. -/
structure Splits (config : Config) (m : Member) (before after : List Fault)
    (fault : String → Fault) : Prop where
  bare_eq : ∀ note, (fault note).bare = (fault "").bare
  faults_eq : ∀ source : Source, source.memberFaults config m =
    before ++ ((source.viewNote config m).map fault).toList ++ after

/-- Of a member, validation asks a source one thing: whether one class is a view. -/
theorem exists_splits (config : Config) (m : Member) :
    ∃ before after fault, Splits config m before after fault := by
  cases hclass : m.viewClass? with
  | none =>
    let unknown : Source := ⟨[], fun _ => none, fun _ => []⟩
    refine ⟨unknown.memberFaults config m, [], fun _ => .privateField, fun _ => rfl, ?_⟩
    intro source
    simp [Source.viewNote, hclass, source.memberFaults_eq_of_viewClass? config hclass unknown]
  | some name =>
    unfold viewClass? at hclass
    split at hclass
    · rename_i id type hd hs
      refine ⟨[], if m.isPrivate then [.privateField] else [],
        .fieldNotView type config.platform.view, fun _ => rfl, ?_⟩
      intro source
      cases type <;> simp [TypeRef.declaredName?] at hclass
      simp [Source.memberFaults, Source.viewFieldFaults, Source.notViewNote, Source.viewNote,
        viewClass?, TypeRef.declaredName?, hd, hs]
    · rename_i ids type returns hd hs
      refine ⟨if m.isPrivate then [.privateMethod] else [],
        if returns = .void then [] else [.returnsValue returns],
        .handlerTakes type config.platform.view, fun _ => rfl, ?_⟩
      intro source
      cases type <;> simp [TypeRef.declaredName?] at hclass
      simp [Source.memberFaults, Source.methodFaults, Source.handlerParamFaults, Source.notViewNote,
        Source.viewNote, viewClass?, TypeRef.declaredName?, hd, hs]
    · cases hclass

end Member

namespace Source

variable {source source' : Source} {config : Config}

section Faults

variable {m : Member}

theorem map_bare_memberFaults
    (h : (source'.viewNote config m).isSome = (source.viewNote config m).isSome) :
    (source'.memberFaults config m).map Member.Fault.bare =
      (source.memberFaults config m).map Member.Fault.bare := by
  obtain ⟨before, after, fault, hbare, hfaults⟩ := Member.exists_splits config m
  rw [hfaults, hfaults]
  cases hn : source.viewNote config m with
  | none =>
    have hn' : source'.viewNote config m = none := by simpa [hn] using h
    rw [hn']
  | some note =>
    obtain ⟨note', hn'⟩ := Option.isSome_iff_exists.mp (h.trans (by rw [hn, Option.isSome_some]))
    simp [hn', hbare note, hbare note']

/-- A member has one fault more where its class is no view. -/
theorem length_memberFaults (config : Config) (m : Member) : ∃ count, ∀ source : Source,
    (source.memberFaults config m).length = count + (source.viewNote config m).isSome.toNat := by
  obtain ⟨before, after, fault, -, hfaults⟩ := Member.exists_splits config m
  refine ⟨before.length + after.length, ?_⟩
  intro source
  rw [hfaults, List.length_append, List.length_append]
  cases source.viewNote config m with
  | none => simp
  | some note =>
    simp only [Option.map_some, Option.toList_some, List.length_singleton, Option.isSome_some,
      Bool.toNat_true]
    omega

theorem keepsMember_eq_of_isSome
    (h : (source'.viewNote config m).isSome = (source.viewNote config m).isSome) :
    source'.keepsMember config m = source.keepsMember config m := by
  have hall : ∀ source : Source, source.keepsMember config m =
      ((source.memberFaults config m).map Member.Fault.bare).all fun f =>
        !f.excludes config.signatures := by
    intro source
    simp [keepsMember, List.all_map, Function.comp_def, Member.Fault.excludes_bare]
  rw [hall, hall, map_bare_memberFaults h]

theorem map_withoutNotes_memberDiagnostics (c : Component)
    (h : (source'.viewNote config m).isSome = (source.viewNote config m).isSome) :
    (source'.memberDiagnostics config c m).map Diagnostic.withoutNotes =
      (source.memberDiagnostics config c m).map Diagnostic.withoutNotes := by
  have hbare : ∀ source : Source,
      (source.memberDiagnostics config c m).map Diagnostic.withoutNotes =
        ((source.memberFaults config m).map Member.Fault.bare).map fun f =>
          (f.diagnostic c m).withoutNotes := by
    intro source
    simp [memberDiagnostics, Function.comp_def, Member.Fault.diagnostic_bare]
  rw [hbare, hbare, map_bare_memberFaults h]

end Faults

theorem isSome_viewNote_iff {m : Member} : (source.viewNote config m).isSome = true ↔
    ∃ name, m.viewClass? = some name ∧ ¬source.IsView config name := by
  rw [viewNote]
  cases m.viewClass? with
  | none => simp
  | some name =>
    simp [← isReached_view_iff, ← Ascent.note_eq_none_iff, Option.isSome_iff_ne_none]

/-- A component is rejected for its kind, or else for want of a base, whatever the note says. -/
theorem withoutNotes_of_componentFault {c : Component} {fault fault' : Component.Fault}
    (hf : source.componentFault config c = some fault)
    (hf' : source'.componentFault config c = some fault') :
    (fault'.diagnostic c).withoutNotes = (fault.diagnostic c).withoutNotes := by
  unfold componentFault at hf hf'
  by_cases hkind : c.kind = .«class»
  · rw [if_pos hkind, Option.map_eq_some_iff] at hf hf'
    obtain ⟨note, -, rfl⟩ := hf
    obtain ⟨note', -, rfl⟩ := hf'
    rfl
  · rw [if_neg hkind, Option.some.injEq] at hf hf'
    rw [← hf, ← hf']

end Source

end ViewWiring
