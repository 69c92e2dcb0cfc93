import ViewWiring.Validation

namespace ViewWiring

theorem Collected.finish_eq {α : Type} (held : Collected) (value : α) :
    held.finish value = if held = [] then .ok value else .error held := by
  cases held <;> rfl

/-- A method with a faulty signature can still be called, so the policy decides about it; the
other faults always exclude the member. -/
def Member.Fault.excludes : SignaturePolicy → Member.Fault → Bool
  | .strict, _ => true
  | .permissive, privateMethod | .permissive, hookTakesParams _ | .permissive, handlerTakes ..
  | .permissive, handlerParamCount _ | .permissive, returnsValue _ => false
  | .permissive, _ => true

/-- A method that generated code is asked to call, as a hook or a handler. -/
def Member.isCalled (m : Member) : Bool :=
  match m.directive, m.shape with
  | some .afterViews, .method .. => true
  | some (.click _), .method .. => true
  | _, _ => false

namespace Source

variable (source : Source) (config : Config) (c : Component)

/-- Only a class that reaches the platform's activity can be bound. -/
def componentFault (c : Component) : Option Component.Fault :=
  if c.kind = .«class» then
    ((source.ascend config c.name config.platform.activity).note).map
      (.missingBase config.platform.activity)
  else some (.notClass c.kind)

def viewFieldFaults (m : Member) (type : TypeRef) : List Member.Fault :=
  ((source.notViewNote config type).map (.fieldNotView type config.platform.view)).toList ++
    if m.isPrivate then [.privateField] else []

def methodFaults (m : Member) (paramFaults : List Member.Fault) (returns : TypeRef) :
    List Member.Fault :=
  (if m.isPrivate then [.privateMethod] else []) ++ paramFaults ++
    if returns = .void then [] else [.returnsValue returns]

/-- The rules that a member breaks, in the order in which they are reported. -/
def memberFaults (m : Member) : List Member.Fault :=
  match m.directive, m.shape with
  | none, _ => []
  | some (.view _), .field type => source.viewFieldFaults config m type
  | some (.view _), .method .. => [.viewOnMethod]
  | some .afterViews, .method params returns => methodFaults m (hookParamFaults params) returns
  | some .afterViews, .field _ => [.hookOnField]
  | some (.click _), .method params returns =>
    methodFaults m (source.handlerParamFaults config params) returns
  | some (.click _), .field _ => [.handlerOnField]

def keepsMember (m : Member) : Bool :=
  (source.memberFaults config m).all fun f => !f.excludes config.signatures

def memberDiagnostics (c : Component) (m : Member) : List Diagnostic :=
  (source.memberFaults config m).map (Member.Fault.diagnostic c m)

section Faults

variable {source config} {m : Member}

theorem excludes_of_mem_viewFieldFaults {type : TypeRef} :
    ∀ fault ∈ source.viewFieldFaults config m type, fault.excludes .permissive = true := by
  rw [viewFieldFaults, List.forall_mem_append]
  constructor
  · cases source.notViewNote config type <;> simp [Member.Fault.excludes]
  · cases m.isPrivate <;> simp [Member.Fault.excludes]

theorem not_excludes_of_mem_hookParamFaults {params : List TypeRef} :
    ∀ fault ∈ hookParamFaults params, fault.excludes .permissive = false := by
  rw [hookParamFaults]
  cases params <;> simp [Member.Fault.excludes]

theorem not_excludes_of_mem_handlerParamFaults {params : List TypeRef} :
    ∀ fault ∈ source.handlerParamFaults config params, fault.excludes .permissive = false := by
  unfold handlerParamFaults
  split
  · rename_i type
    cases source.notViewNote config type <;> simp [Member.Fault.excludes]
  · simp [Member.Fault.excludes]

theorem not_excludes_of_mem_methodFaults {paramFaults : List Member.Fault} {returns : TypeRef}
    (h : ∀ fault ∈ paramFaults, fault.excludes .permissive = false) :
    ∀ fault ∈ methodFaults m paramFaults returns, fault.excludes .permissive = false := by
  rw [methodFaults, List.forall_mem_append, List.forall_mem_append]
  refine ⟨⟨?_, h⟩, ?_⟩
  · cases m.isPrivate <;> simp [Member.Fault.excludes]
  · by_cases hr : returns = .void <;> simp [hr, Member.Fault.excludes]

/-- The permissive policy forgives every fault of a method that is called, and no other. -/
theorem excludes_permissive :
    ∀ fault ∈ source.memberFaults config m, fault.excludes .permissive = !m.isCalled := by
  unfold memberFaults Member.isCalled
  cases m.directive with
  | none => simp
  | some d =>
    cases m.shape with
    | field type =>
      cases d with
      | view => exact excludes_of_mem_viewFieldFaults
      | afterViews | click => simp [Member.Fault.excludes]
    | method params returns =>
      cases d with
      | view => simp [Member.Fault.excludes]
      | afterViews => exact not_excludes_of_mem_methodFaults not_excludes_of_mem_hookParamFaults
      | click => exact not_excludes_of_mem_methodFaults not_excludes_of_mem_handlerParamFaults

/-- A member is kept if nothing is wrong with it, or if it is called and the policy permits that. -/
theorem keepsMember_iff :
    source.keepsMember config m = true ↔
      source.memberFaults config m = [] ∨
        (config.signatures = .permissive ∧ m.isCalled = true) := by
  cases hp : config.signatures with
  | strict =>
    rw [keepsMember, hp]
    cases source.memberFaults config m <;> simp [Member.Fault.excludes]
  | permissive =>
    have hfaults : ∀ fault ∈ source.memberFaults config m,
        fault.excludes .permissive = !m.isCalled := excludes_permissive
    rw [keepsMember, List.all_eq_true, hp]
    cases hc : m.isCalled with
    | true =>
      simp only [hc] at hfaults
      simpa using hfaults
    | false =>
      simp only [List.eq_nil_iff_forall_not_mem]
      constructor
      · intro h
        exact .inl fun fault hf => by simpa [hfaults fault hf, hc] using h fault hf
      · rintro (h | ⟨-, h⟩)
        · exact fun fault hf => absurd hf (h fault)
        · cases h

end Faults

theorem checkComponent_eq :
    source.checkComponent config c =
      match source.componentFault config c with
      | some fault => .error [fault.diagnostic c]
      | none => .ok () := by
  unfold checkComponent componentFault
  by_cases hkind : c.kind = .«class»
  · rw [if_pos hkind, if_pos hkind]
    cases (source.ascend config c.name config.platform.activity).note <;> rfl
  · rw [if_neg hkind, if_neg hkind]
    rfl

section Checks

variable (m : Member)

theorem checkView_of_field {type : TypeRef} (hs : m.shape = .field type) :
    source.checkView config c m = Collected.finish
      ((source.viewFieldFaults config m type).map (Member.Fault.diagnostic c m)) () := by
  simp only [checkView, hs, viewFieldFaults]
  cases source.notViewNote config type <;> cases m.isPrivate <;> rfl

theorem checkMethod_of_method (onField : Member.Fault)
    (paramFaults : List TypeRef → List Member.Fault) {params : List TypeRef} {returns : TypeRef}
    (hs : m.shape = .method params returns) :
    checkMethod config onField paramFaults c m = config.applyPolicy
      ((methodFaults m (paramFaults params) returns).map (Member.Fault.diagnostic c m)) := by
  rw [checkMethod, Member.expectMethod, hs, methodFaults]
  change config.applyPolicy _ = _
  rw [Collected.reportAll_eq_append]
  congr 1
  cases m.isPrivate <;> by_cases hr : returns = .void <;>
    simp [hr, Collected.report]

theorem checkMethod_of_field (onField : Member.Fault)
    (paramFaults : List TypeRef → List Member.Fault) {type : TypeRef}
    (hs : m.shape = .field type) :
    checkMethod config onField paramFaults c m = .error [onField.diagnostic c m] := by
  rw [checkMethod, Member.expectMethod, hs]
  rfl

/-- The policy has the last word on a method that is called. -/
theorem checkMember_of_isCalled (h : m.isCalled = true) :
    source.checkMember config c m = config.applyPolicy (source.memberDiagnostics config c m) := by
  match hd : m.directive, hs : m.shape with
  | some .afterViews, .method _ _ | some (.click _), .method _ _ =>
    simp only [checkMember, hd, checkMethod_of_method config c m _ _ hs, memberDiagnostics,
      memberFaults, hs]
  | none, _ | some (.view _), _ | some .afterViews, .field _ | some (.click _), .field _ =>
    simp [Member.isCalled, hd, hs] at h

/-- Any fault excludes any other member. -/
theorem checkMember_of_not_isCalled (h : m.isCalled = false) :
    source.checkMember config c m =
      Collected.finish (source.memberDiagnostics config c m) ⟨(), []⟩ := by
  match hd : m.directive, hs : m.shape with
  | none, _ => simp only [checkMember, hd, memberDiagnostics, memberFaults]; rfl
  | some (.view _), .field type =>
    simp only [checkMember, hd, source.checkView_of_field config c m hs, memberDiagnostics,
      memberFaults, hs, Collected.finish_eq]
    split <;> rfl
  | some (.view _), .method _ _ =>
    simp only [checkMember, hd, checkView, hs, memberDiagnostics, memberFaults]
    rfl
  | some .afterViews, .field _ | some (.click _), .field _ =>
    simp only [checkMember, hd, checkMethod_of_field config c m _ _ hs, memberDiagnostics,
      memberFaults, hs]
    rfl
  | some .afterViews, .method _ _ | some (.click _), .method _ _ =>
    simp [Member.isCalled, hd, hs] at h

/-- All faults of a member are reported, and it is kept or not as they and the policy have it. -/
theorem checkMember_eq :
    source.checkMember config c m =
      if source.keepsMember config m then .ok ⟨(), source.memberDiagnostics config c m⟩
      else .error (source.memberDiagnostics config c m) := by
  have hkeeps : source.keepsMember config m = true ↔ source.memberFaults config m = [] ∨
      (config.signatures = .permissive ∧ m.isCalled = true) := keepsMember_iff
  have hnone : source.memberDiagnostics config c m = [] ↔ source.memberFaults config m = [] :=
    List.map_eq_nil_iff
  -- where the policy has no say, what is kept is what nothing is said of
  have hfinish (h : source.keepsMember config m = true ↔ source.memberFaults config m = []) :
      Collected.finish (source.memberDiagnostics config c m) (⟨(), []⟩ : Noted Unit) =
        if source.keepsMember config m then .ok ⟨(), source.memberDiagnostics config c m⟩
        else .error (source.memberDiagnostics config c m) := by
    rw [Collected.finish_eq]
    by_cases hf : source.memberFaults config m = []
    · rw [if_pos (hnone.mpr hf), if_pos (h.mpr hf), hnone.mpr hf]
    · rw [if_neg (mt hnone.mp hf), if_neg (mt h.mp hf)]
  cases hc : m.isCalled with
  | false =>
    rw [checkMember_of_not_isCalled source config c m hc]
    exact hfinish (by simpa [hc] using hkeeps)
  | true =>
    rw [checkMember_of_isCalled source config c m hc, Config.applyPolicy]
    cases hp : config.signatures with
    | strict => exact hfinish (by simpa [hp] using hkeeps)
    | permissive => rw [if_pos (hkeeps.mpr (.inr ⟨hp, hc⟩))]

/-- What one more member adds: itself, if it is kept, and all that is to be said of it. -/
theorem takeMember_eq (found : Noted (List Member)) :
    source.takeMember config c found m =
      ⟨found.value ++ [m].filter (source.keepsMember config),
        found.diagnostics ++ source.memberDiagnostics config c m⟩ := by
  rw [takeMember, checkMember_eq]
  cases hk : source.keepsMember config m <;> simp [Collected.take, Collected.record, hk]

end Checks

theorem foldl_takeMember (ms : List Member) (found : Noted (List Member)) :
    ms.foldl (source.takeMember config c) found =
      ⟨found.value ++ ms.filter (source.keepsMember config),
        found.diagnostics ++ ms.flatMap (source.memberDiagnostics config c)⟩ := by
  induction ms generalizing found with
  | nil => simp
  | cons m ms ih =>
    rw [List.foldl_cons, takeMember_eq, ih, List.flatMap_cons, List.append_assoc, List.append_assoc,
      ← List.filter_append, List.singleton_append]

/-- One pass over the members keeps those that may be kept, in order, and reports on all. -/
theorem validate_eq :
    source.validate config c =
      match source.componentFault config c with
      | some fault => ⟨none, [fault.diagnostic c]⟩
      | none =>
        ⟨some ⟨c, (source.members config c).filter (source.keepsMember config)⟩,
          (source.members config c).flatMap (source.memberDiagnostics config c)⟩ := by
  rw [validate, checkComponent_eq]
  cases source.componentFault config c with
  | some fault => rfl
  | none => simp [foldl_takeMember]

end Source

end ViewWiring
