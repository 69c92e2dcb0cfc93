import ViewWiring.Proofs.Initializer.Statements
import ViewWiring.Proofs.Validation.Outcome
import ViewWiring.Source.Declarations

namespace ViewWiring

namespace Code

/-- A call without a target, with the methods of the unnamed classes that it stands in: a call to
one of these goes there, and not to the object that the file's class makes. -/
structure OwnCall where
  method : String
  around : List String
  deriving DecidableEq

def OwnCall.isCaptured (call : OwnCall) : Bool := call.around.contains call.method

mutual

/-- The calls without a target that an expression makes inside unnamed classes with the methods
`around`. -/
def Expr.ownCalls (around : List String) : Expr → List OwnCall
  | .ident _ | .int _ | .super => []
  | .call none method args => ⟨method, around⟩ :: Expr.ownCallsAll around args
  | .call (some target) _ args => target.ownCalls around ++ Expr.ownCallsAll around args
  | .cast _ value => value.ownCalls around
  | .new _ methods => Method.ownCallsAll (methods.map Method.name ++ around) methods

def Expr.ownCallsAll (around : List String) : List Expr → List OwnCall
  | [] => []
  | e :: es => e.ownCalls around ++ Expr.ownCallsAll around es

def Statement.ownCalls (around : List String) : Statement → List OwnCall
  | .expr value | .assign _ value | .declare _ _ value => value.ownCalls around

def Statement.ownCallsAll (around : List String) : List Statement → List OwnCall
  | [] => []
  | s :: ss => s.ownCalls around ++ Statement.ownCallsAll around ss

def Statement.ownCallsOfSections (around : List String) : List (List Statement) → List OwnCall
  | [] => []
  | ss :: rest => Statement.ownCallsAll around ss ++ Statement.ownCallsOfSections around rest

def Method.ownCalls (around : List String) : Method → List OwnCall
  | ⟨_, _, _, _, _, sections⟩ => Statement.ownCallsOfSections around sections

def Method.ownCallsAll (around : List String) : List Method → List OwnCall
  | [] => []
  | m :: ms => m.ownCalls around ++ Method.ownCallsAll around ms

end

theorem Statement.ownCallsAll_eq_flatMap (around : List String) (ss : List Statement) :
    Statement.ownCallsAll around ss = ss.flatMap (Statement.ownCalls around) := by
  induction ss with
  | nil => rfl
  | cons s ss ih => rw [Statement.ownCallsAll, ih, List.flatMap_cons]

theorem Statement.ownCallsOfSections_eq_flatMap (around : List String)
    (sections : List (List Statement)) :
    Statement.ownCallsOfSections around sections =
      sections.flatten.flatMap (Statement.ownCalls around) := by
  induction sections with
  | nil => rfl
  | cons ss rest ih =>
    rw [Statement.ownCallsOfSections, ih, Statement.ownCallsAll_eq_flatMap, List.flatten_cons,
      List.flatMap_append]

theorem Method.ownCalls_eq_flatMap (around : List String) (m : Method) :
    m.ownCalls around = m.statements.flatMap (Statement.ownCalls around) := by
  obtain ⟨name, annotations, modifiers, returns, params, sections⟩ := m
  rw [Method.ownCalls, Statement.ownCallsOfSections_eq_flatMap, Method.statements]

/-- The calls without a target in a file, whose own methods capture none. -/
def SourceFile.ownCalls (f : SourceFile) : List OwnCall :=
  f.statements.flatMap (Statement.ownCalls [])

end Code

open Code

namespace ComponentBinding

variable (config : Config)

theorem ownCalls_viewLookup (v : ViewBinding) :
    (viewLookup config v).ownCalls [] = [⟨"findViewById", []⟩] := by
  unfold viewLookup
  cases config.viewStyle <;> rfl

theorem ownCalls_hookCall (hook : String) : (hookCall hook).ownCalls [] = [⟨hook, []⟩] := rfl

/-- A listener looks its view up outside of its unnamed class and calls the handler inside. -/
theorem ownCalls_clickListener (c : ClickBinding) (id : Int) :
    (clickListener config c id).ownCalls [] =
      [⟨"findViewById", []⟩, ⟨c.handler, [onClickName]⟩] := by
  have ha : (clickArgument config c).ownCalls [onClickName] = [] := by
    unfold clickArgument
    split
    · split <;> rfl
    · rfl
  simp [clickListener, findView, onClick, Statement.ownCalls, Expr.ownCalls, Expr.ownCallsAll,
    Method.ownCallsAll, Method.ownCalls_eq_flatMap, Method.statements, ha]

theorem isCaptured_handler (handler : String) :
    (OwnCall.mk handler [onClickName]).isCaptured = false ↔ handler ≠ onClickName := by
  simp [OwnCall.isCaptured]

theorem ownCalls_captured_iff {b : ComponentBinding} {f : SourceFile}
    (h : b.sourceFile config = .ok f) :
    (∀ call ∈ f.ownCalls, call.isCaptured = false) ↔
      ∀ c ∈ b.clicks, c.ids ≠ [] → c.handler ≠ onClickName := by
  constructor
  · intro hall c hc hids
    obtain ⟨id, hid⟩ := List.exists_mem_of_ne_nil _ hids
    apply (isCaptured_handler c.handler).mp
    apply hall
    rw [SourceFile.ownCalls, List.mem_flatMap]
    exact ⟨clickListener config c id, clickListener_mem config h hc hid,
      by simp [ownCalls_clickListener]⟩
  · intro hall call hcall
    rw [SourceFile.ownCalls, List.mem_flatMap] at hcall
    obtain ⟨s, hs, hcall⟩ := hcall
    -- outside of the listeners nothing stands around a call
    obtain rfl | ⟨layout, -, rfl⟩ | ⟨v, -, rfl⟩ | ⟨hook, -, rfl⟩ | ⟨c, hc, id, hid, rfl⟩ :=
      statement_cases config h hs
    · simp [Statement.ownCalls, Expr.ownCalls, Expr.ownCallsAll] at hcall
    · obtain rfl : call = ⟨"setContentView", []⟩ := by
        simpa [Statement.ownCalls, Expr.ownCalls, Expr.ownCallsAll] using hcall
      rfl
    · rw [ownCalls_viewLookup, List.mem_singleton] at hcall
      simp [OwnCall.isCaptured, hcall]
    · rw [ownCalls_hookCall, List.mem_singleton] at hcall
      simp [OwnCall.isCaptured, hcall]
    · rw [ownCalls_clickListener] at hcall
      rcases List.mem_cons.mp hcall with rfl | hcall
      · rfl
      · obtain rfl := List.mem_singleton.mp hcall
        exact (isCaptured_handler c.handler).mpr (hall c hc (List.ne_nil_of_mem hid))

end ComponentBinding

namespace Source

open ComponentBinding

/-- Every listener calls the handler of a member that is kept, from inside its unnamed class, and
the call reaches the handler unless that is itself called `onClick`; so the calls of a generated
file all go where they should iff no handler that listens on anything has this name. -/
theorem listeners_reach_handlers_iff (source : Source) (config : Config) (c : Component)
    {v : Validated} {f : SourceFile} (hv : (source.validate config c).value = some v)
    (hf : v.binding.sourceFile config = .ok f) :
    (∀ m ∈ source.members config c, source.keepsMember config m = true →
      ∀ ids, m.directive = some (.click ids) → ∀ id ∈ ids,
        let listener := clickListener config ⟨m.name, ids, m.onlyParam?⟩ id
        listener ∈ f.statements ∧
        listener.ownCalls [] = [⟨"findViewById", []⟩, ⟨m.name, [onClickName]⟩] ∧
        ((∀ call ∈ listener.ownCalls [], call.isCaptured = false) ↔ m.name ≠ onClickName)) ∧
    ((∀ call ∈ f.ownCalls, call.isCaptured = false) ↔
      ∀ m ∈ source.members config c, source.keepsMember config m = true →
        ∀ ids, m.directive = some (.click ids) → ids ≠ [] → m.name ≠ onClickName) := by
  have hclicks : ∀ click, click ∈ v.binding.clicks ↔
      ∃ m ∈ source.members config c, source.keepsMember config m = true ∧
        ∃ ids, m.directive = some (.click ids) ∧ click = ⟨m.name, ids, m.onlyParam?⟩ := by
    intro click
    rw [mem_clicks, source.members_of_validate config c hv]
    simp only [List.mem_filter, and_assoc]
  constructor
  · intro m hm hk ids hd id hid listener
    have hcalls : listener.ownCalls [] = [⟨"findViewById", []⟩, ⟨m.name, [onClickName]⟩] :=
      ownCalls_clickListener config _ id
    refine ⟨?_, hcalls, ?_⟩
    · exact clickListener_mem config hf ((hclicks _).mpr ⟨m, hm, hk, ids, hd, rfl⟩) hid
    · rw [hcalls, ← isCaptured_handler m.name]
      simp [OwnCall.isCaptured]
  · rw [ownCalls_captured_iff config hf]
    constructor
    · intro hall m hm hk ids hd hids
      exact hall _ ((hclicks _).mpr ⟨m, hm, hk, ids, hd, rfl⟩) hids
    · intro hall click hc hids
      obtain ⟨m, hm, hk, ids, hd, rfl⟩ := (hclicks click).mp hc
      exact hall m hm hk ids hd hids

theorem listener_reaches_onTap :
    let handler : Member :=
      ⟨"onTap", .method [.declared ⟨"android.widget.Button"⟩] .void, [], some (.click [7, 9])⟩
    let screen : Component :=
      ⟨⟨"a.Main"⟩, "a", .«class», some ⟨"android.app.Activity"⟩, some 1, [handler]⟩
    let source := (Declarations.ofComponents [screen]).toSource
    let v : Validated := ⟨screen, [handler]⟩
    (source.validate .standard screen).value = some v ∧
      ∃ f, v.binding.sourceFile .standard = .ok f ∧
        ∀ call ∈ f.ownCalls, call.isCaptured = false := by
  intro handler screen source v
  have hv : (source.validate .standard screen).value = some v := by decide +kernel
  obtain ⟨hl, -⟩ | ⟨layout, -, hf⟩ := v.binding.sourceFile_cases .standard
  · simp [v, screen, Validated.binding] at hl
  have hm : source.members .standard screen = [handler] := by decide +kernel
  refine ⟨hv, _, hf, (listeners_reach_handlers_iff source .standard screen hv hf).2.mpr ?_⟩
  rw [hm]
  intro m hmem _ ids _ _
  obtain rfl := List.mem_singleton.mp hmem
  decide

/-- A handler named as the method of the listener is accepted without a word, and its listener
calls itself. -/
theorem listener_captures_onClick :
    let handler : Member :=
      ⟨"onClick", .method [.declared ⟨"android.view.View"⟩] .void, [], some (.click [7])⟩
    let screen : Component :=
      ⟨⟨"a.Main"⟩, "a", .«class», some ⟨"android.app.Activity"⟩, some 1, [handler]⟩
    let source := (Declarations.ofComponents [screen]).toSource
    let v : Validated := ⟨screen, [handler]⟩
    Config.standard.signatures = .strict ∧
    source.validate .standard screen = ⟨some v, []⟩ ∧
    (v.binding.sourceFile .standard).toOption.map
        (fun f => f.ownCalls.filter OwnCall.isCaptured) = some [⟨"onClick", ["onClick"]⟩] := by
  decide +kernel

end Source

end ViewWiring
