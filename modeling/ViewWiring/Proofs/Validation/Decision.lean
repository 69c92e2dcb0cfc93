import ViewWiring.Proofs.Validation.Outcome
import ViewWiring.Proofs.Validation.Policy
import ViewWiring.Proofs.Validation.Rules
import ViewWiring.Source.Declarations

namespace ViewWiring

namespace Member

/-- What validation asks of a member with a directive. -/
inductive Rule
  | place
  | fieldClass
  | visibility
  | paramCount
  | paramClass
  | result
  deriving DecidableEq

namespace Rule

/-- In the order in which they are reported. -/
def all : List Rule := [place, fieldClass, visibility, paramCount, paramClass, result]

def kind : Rule → Diagnostic.Kind
  | place | fieldClass => .invalidMemberType
  | visibility => .illegalPrivateModifier
  | paramCount | paramClass | result => .invalidSignature

end Rule

/-- The rule that a fault is about. -/
def Fault.rule : Fault → Rule
  | viewOnMethod | hookOnField | handlerOnField => .place
  | fieldNotView .. => .fieldClass
  | privateField | privateMethod => .visibility
  | hookTakesParams _ | handlerParamCount _ => .paramCount
  | handlerTakes .. => .paramClass
  | returnsValue _ => .result

/-- The directive is one for the other kind of member: a view is stored in a field, and methods are
called. -/
def isMisplaced (m : Member) : Bool :=
  match m.directive, m.shape with
  | some (.view _), .method .. => true
  | some .afterViews, .field _ | some (.click _), .field _ => true
  | _, _ => false

end Member

namespace Source

variable (source : Source) (config : Config)

/-- The type is a class that is a view. -/
def IsViewType (type : TypeRef) : Prop :=
  ∃ name, type = .declared name ∧ source.IsView config name

/-- When a member breaks each of the rules. -/
def Breaks (m : Member) : Member.Rule → Prop
  | .place => m.isMisplaced = true
  | .fieldClass => ∃ id type, m.directive = some (.view id) ∧ m.shape = .field type ∧
      ¬source.IsViewType config type
  | .visibility => m.directive ≠ none ∧ m.isMisplaced = false ∧ m.isPrivate = true
  | .paramCount => ∃ params returns, m.shape = .method params returns ∧
      (m.directive = some .afterViews ∧ params.length ≠ 0 ∨
        ∃ ids, m.directive = some (.click ids) ∧ params.length ≠ 1)
  | .paramClass => ∃ ids type returns, m.directive = some (.click ids) ∧
      m.shape = .method [type] returns ∧ ¬source.IsViewType config type
  | .result => m.isCalled = true ∧ ∃ params returns, m.shape = .method params returns ∧
      returns ≠ .void

/-- Of each rule that a member breaks there is one fault, and of no other. -/
structure FaultsOf (m : Member) (faults : List Member.Fault) : Prop where
  sublist : (faults.map Member.Fault.rule).Sublist Member.Rule.all
  mem_iff : ∀ rule, rule ∈ faults.map Member.Fault.rule ↔ source.Breaks config m rule

variable {source config} {m : Member}

theorem faultsOf_viewField {id : Int} {type : TypeRef} (hd : m.directive = some (.view id))
    (hs : m.shape = .field type) :
    source.FaultsOf config m (source.viewFieldFaults config m type) := by
  have hview : source.notViewNote config type = none ↔ source.IsViewType config type :=
    source.notViewNote_eq_none_iff config type
  have hplace : m.isMisplaced = false := by simp [Member.isMisplaced, hd, hs]
  have hcalled : m.isCalled = false := by simp [Member.isCalled, hd]
  unfold viewFieldFaults
  cases hn : source.notViewNote config type <;> cases hp : m.isPrivate
  all_goals
    rw [hn] at hview
    constructor
    · simp [Member.Fault.rule, Member.Rule.all]
    · intro rule
      cases rule <;> simp_all [Breaks, Member.Fault.rule]

theorem isMisplaced_of_isCalled (h : m.isCalled = true) :
    m.directive ≠ none ∧ m.isMisplaced = false ∧ ∀ id, m.directive ≠ some (.view id) := by
  unfold Member.isCalled at h
  unfold Member.isMisplaced
  cases hd : m.directive with
  | none => simp [hd] at h
  | some d => cases hs : m.shape <;> cases d <;> simp_all

/-- Of a method that is called, the visibility, the parameters and the result are looked at. -/
theorem faultsOf_method {params : List TypeRef} {returns : TypeRef}
    {paramFaults : List Member.Fault} (hc : m.isCalled = true)
    (hs : m.shape = .method params returns)
    (hrules : (paramFaults.map Member.Fault.rule).Sublist [.paramCount, .paramClass])
    (hcount : .paramCount ∈ paramFaults.map Member.Fault.rule ↔
      source.Breaks config m .paramCount)
    (hclass : .paramClass ∈ paramFaults.map Member.Fault.rule ↔
      source.Breaks config m .paramClass) :
    source.FaultsOf config m (methodFaults m paramFaults returns) := by
  obtain ⟨hd, hplace, hview⟩ := isMisplaced_of_isCalled hc
  have hmap : (methodFaults m paramFaults returns).map Member.Fault.rule =
      (if m.isPrivate then [.visibility] else []) ++ paramFaults.map Member.Fault.rule ++
        if returns = .void then [] else [.result] := by
    unfold methodFaults
    cases m.isPrivate <;> by_cases hr : returns = .void <;> simp [hr, Member.Fault.rule]
  constructor
  · have hvisibility : (if m.isPrivate then [Member.Rule.visibility] else []).Sublist
        [.place, .fieldClass, .visibility] := by
      cases m.isPrivate <;> simp
    have hresult : (if returns = .void then [] else [Member.Rule.result]).Sublist [.result] := by
      by_cases hr : returns = .void <;> simp [hr]
    rw [hmap]
    exact (hvisibility.append hrules).append hresult
  · intro rule
    have hout : rule ∈ paramFaults.map Member.Fault.rule →
        rule = .paramCount ∨ rule = .paramClass := by
      intro h
      simpa using hrules.subset h
    have hmem : rule ∈ (methodFaults m paramFaults returns).map Member.Fault.rule ↔
        m.isPrivate = true ∧ rule = .visibility ∨ rule ∈ paramFaults.map Member.Fault.rule ∨
          returns ≠ .void ∧ rule = .result := by
      rw [hmap]
      cases m.isPrivate <;> by_cases hr : returns = .void <;> simp [hr]
    rw [hmem]
    cases rule with
    | paramCount => simpa using hcount
    | paramClass => simpa using hclass
    | place => simpa [Breaks, hplace] using hout
    | fieldClass => simpa [Breaks, hview] using hout
    | visibility =>
      have hn := mt hout (by simp)
      simp [hn, Breaks, hd, hplace]
    | result =>
      have hn := mt hout (by simp)
      simp [hn, Breaks, hc, hs, and_assoc]

theorem faultsOf_hook {params : List TypeRef} {returns : TypeRef}
    (hd : m.directive = some .afterViews) (hs : m.shape = .method params returns) :
    source.FaultsOf config m (methodFaults m (hookParamFaults params) returns) := by
  have hc : m.isCalled = true := by simp [Member.isCalled, hd, hs]
  apply faultsOf_method hc hs
  · cases params <;> simp [hookParamFaults, Member.Fault.rule]
  · cases params <;> simp [hookParamFaults, Member.Fault.rule, Breaks, hd, hs]
  · cases params <;> simp [hookParamFaults, Member.Fault.rule, Breaks, hd]

theorem faultsOf_handler {ids : List Int} {params : List TypeRef} {returns : TypeRef}
    (hd : m.directive = some (.click ids)) (hs : m.shape = .method params returns) :
    source.FaultsOf config m
      (methodFaults m (source.handlerParamFaults config params) returns) := by
  have hc : m.isCalled = true := by simp [Member.isCalled, hd, hs]
  by_cases hone : ∃ type, params = [type]
  · obtain ⟨type, rfl⟩ := hone
    have hview : source.notViewNote config type = none ↔ source.IsViewType config type :=
      source.notViewNote_eq_none_iff config type
    apply faultsOf_method hc hs
    all_goals
      unfold handlerParamFaults
      cases hn : source.notViewNote config type <;>
        simp_all [Member.Fault.rule, Breaks]
  · have hfaults : source.handlerParamFaults config params = [.handlerParamCount params.length] := by
      unfold handlerParamFaults
      split <;> simp_all
    have hcount : params.length ≠ 1 := mt List.length_eq_one_iff.mp hone
    have hnone : ∀ type, params ≠ [type] := not_exists.mp hone
    rw [hfaults]
    apply faultsOf_method hc hs
    all_goals simp [Member.Fault.rule, Breaks, hd, hs, hcount, hnone]

theorem breaks_iff_of_isMisplaced (hm : m.isMisplaced = true) (rule : Member.Rule) :
    source.Breaks config m rule ↔ rule = .place := by
  have hcall : m.isCalled = false := by
    cases hc : m.isCalled with
    | false => rfl
    | true => simp [isMisplaced_of_isCalled hc] at hm
  unfold Member.isMisplaced at hm
  cases hd : m.directive with
  | none => simp [hd] at hm
  | some d =>
    cases hs : m.shape <;> cases d <;> cases rule <;>
      simp_all [Breaks, Member.isMisplaced]

theorem memberFaults_of_isMisplaced (hm : m.isMisplaced = true) :
    (source.memberFaults config m).map Member.Fault.rule = [.place] := by
  unfold Member.isMisplaced at hm
  unfold memberFaults
  cases hd : m.directive with
  | none => simp [hd] at hm
  | some d => cases hs : m.shape <;> cases d <;> simp_all [Member.Fault.rule]

/-- A directive on the wrong kind of member is the only thing that is reported of it. -/
theorem faultsOf_misplaced (hm : m.isMisplaced = true) :
    source.FaultsOf config m (source.memberFaults config m) := by
  have hrules : (source.memberFaults config m).map Member.Fault.rule = [.place] :=
    memberFaults_of_isMisplaced hm
  constructor
  · simp [hrules, Member.Rule.all]
  · intro rule
    simp [hrules, breaks_iff_of_isMisplaced hm]

theorem faultsOf_memberFaults : source.FaultsOf config m (source.memberFaults config m) := by
  cases hm : m.isMisplaced with
  | true => exact faultsOf_misplaced hm
  | false =>
    unfold memberFaults
    cases hd : m.directive with
    | none =>
      constructor
      · simp
      · intro rule
        cases rule <;> simp [Breaks, Member.isMisplaced, Member.isCalled, hd]
    | some d =>
      cases hs : m.shape with
      | field type =>
        cases d with
        | view => exact faultsOf_viewField hd hs
        | afterViews | click => simp [Member.isMisplaced, hd, hs] at hm
      | method params returns =>
        cases d with
        | view => simp [Member.isMisplaced, hd, hs] at hm
        | afterViews => exact faultsOf_hook hd hs
        | click => exact faultsOf_handler hd hs

variable (source config m) (c : Component)

/-- What is said of a member: one diagnostic at it for each rule that it breaks, but only one if
the directive is on the wrong kind of member. -/
structure Reports (said : List Diagnostic) (broken : List Member.Rule) : Prop where
  kinds : said.map Diagnostic.kind = broken.map Member.Rule.kind
  anchors : ∀ d ∈ said, d.anchor = some (c.memberAnchor m)
  sublist : broken.Sublist Member.Rule.all
  mem_iff : ∀ rule, rule ∈ broken ↔ source.Breaks config m rule
  misplaced : m.isMisplaced = true → broken = [.place]

theorem reports_memberDiagnostics :
    source.Reports config m c (source.memberDiagnostics config c m)
      ((source.memberFaults config m).map Member.Fault.rule) := by
  have hfaults : source.FaultsOf config m (source.memberFaults config m) := faultsOf_memberFaults
  constructor
  · rw [memberDiagnostics, List.map_map, List.map_map]
    apply List.map_congr_left
    intro fault _
    cases fault <;> rfl
  · intro d hd
    obtain ⟨fault, -, rfl⟩ := List.mem_map.mp hd
    exact fault.anchor_diagnostic c m
  · exact hfaults.sublist
  · exact hfaults.mem_iff
  · exact memberFaults_of_isMisplaced

/-- A component is rejected, with one diagnostic, exactly if it cannot be bound. Of one that can,
every member is judged on its own and reported in its turn; the strict policy keeps those that fit
their directive, which are those of which nothing is said. -/
theorem validate_decides :
    ((∃ d, source.validate config c = ⟨none, [d]⟩) ↔ ¬source.Bindable config c) ∧
    (source.Bindable config c →
      source.validate config c =
        ⟨some ⟨c, (source.members config c).filter (source.keepsMember config)⟩,
          (source.members config c).flatMap (source.memberDiagnostics config c)⟩ ∧
      ∀ m, (∃ broken, source.Reports config m c (source.memberDiagnostics config c m) broken) ∧
        (config.signatures = .strict →
          (source.keepsMember config m = true ↔
            ∀ d, m.directive = some d → source.Fits config m d) ∧
          (source.keepsMember config m = true ↔ source.memberDiagnostics config c m = []))) := by
  obtain ⟨fault, hf, hv⟩ | ⟨hf, hv⟩ := source.validate_cases config c
  · have hb : ¬source.Bindable config c := by
      rw [← componentFault_eq_none_iff, hf]
      simp
    exact ⟨⟨fun _ => hb, fun _ => ⟨_, hv⟩⟩, fun h => absurd h hb⟩
  · have hb : source.Bindable config c := (source.componentFault_eq_none_iff config).mp hf
    refine ⟨by simp [hv, hb], fun _ => ⟨hv, fun m => ⟨⟨_, reports_memberDiagnostics ..⟩, ?_⟩⟩⟩
    intro hs
    have hkeep := source.keepsMember_iff_of_strict config hs (m := m)
    have hsaid : source.memberDiagnostics config c m = [] ↔ source.memberFaults config m = [] :=
      List.map_eq_nil_iff
    exact ⟨hkeep, by rw [hkeep, hsaid, memberFaults_eq_nil_iff]⟩

/-- A private label of a class that is no view breaks two rules and is left out, and a hook with a
result breaks one; the handler between them is kept. -/
theorem validate_decides_mixed :
    let label : Member :=
      ⟨"label", .field (.declared ⟨"java.lang.String"⟩), [.«private»], some (.view 1)⟩
    let go : Member :=
      ⟨"go", .method [.declared ⟨"android.widget.Button"⟩] .void, [], some (.click [2])⟩
    let setup : Member := ⟨"setup", .method [] (.primitive .int), [], some .afterViews⟩
    let screen : Component :=
      ⟨⟨"a.Main"⟩, "a", .«class», some ⟨"android.app.Activity"⟩, some 1, [label, go, setup]⟩
    let source := (Declarations.ofComponents [screen]).toSource
    source.Bindable .standard screen ∧
      (source.validate .standard screen).value = some ⟨screen, [go]⟩ ∧
      (source.validate .standard screen).diagnostics.map Diagnostic.kind =
        [.invalidMemberType, .illegalPrivateModifier, .invalidSignature] ∧
      source.Fits .standard go (.click [2]) ∧
      ∃ broken, source.Reports .standard label screen
        (source.memberDiagnostics .standard screen label) broken ∧
        broken.length = 2 ∧ .visibility ∈ broken := by
  intro label go setup screen source
  have hb : source.Bindable .standard screen := ⟨rfl, 1, by decide, by decide +kernel⟩
  obtain ⟨hv, hmembers⟩ := (source.validate_decides .standard screen).2 hb
  have hkept : (source.members .standard screen).filter (source.keepsMember .standard) = [go] := by
    decide +kernel
  obtain ⟨broken, hbroken⟩ := (hmembers label).1
  have htwo : (source.memberDiagnostics .standard screen label).length = 2 := by decide +kernel
  refine ⟨hb, by rw [hv, hkept], by decide +kernel, ?_, broken, hbroken, ?_, ?_⟩
  · exact ((hmembers go).2 rfl).1.mp (by decide +kernel) _ rfl
  · have hlength := congrArg List.length hbroken.kinds
    simpa [htwo] using hlength.symm
  · exact (hbroken.mem_iff .visibility).mpr ⟨by simp [label], rfl, rfl⟩

end Source

end ViewWiring
