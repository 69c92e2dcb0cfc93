import ViewWiring.Binding.Build
import ViewWiring.Proofs.Inheritance.Ancestors
import ViewWiring.Proofs.Inheritance.Hiding
import ViewWiring.Proofs.Validation.Outcome

namespace ViewWiring

/-- One member of a list exchanged for another one. -/
structure Exchange where
  earlier : List Member
  out : Member
  into : Member
  later : List Member

namespace Exchange

variable {α : Type} (x : Exchange)

def old : List Member := x.earlier ++ x.out :: x.later

def new : List Member := x.earlier ++ x.into :: x.later

/-- The same exchange in a list with other members in front. -/
def after (ms : List Member) : Exchange := { x with earlier := ms ++ x.earlier }

theorem old_after (ms : List Member) : (x.after ms).old = ms ++ x.old := List.append_assoc ..

theorem new_after (ms : List Member) : (x.after ms).new = ms ++ x.new := List.append_assoc ..

theorem map_overrideKey_new (hkey : x.into.overrideKey = x.out.overrideKey) :
    x.new.map Member.overrideKey = x.old.map Member.overrideKey := by
  rw [new, old, List.map_append, List.map_append, List.map_cons, List.map_cons, hkey]

/-- What was taken from the members before the exchange, and what is after it: the same from all of
them but the one exchanged, and in the same places. -/
def Shows (take : List Member → List α) (before now : List α) : Prop :=
  before = take x.earlier ++ take [x.out] ++ take x.later ∧
    now = take x.earlier ++ take [x.into] ++ take x.later

theorem shows_of_append {take : List Member → List α}
    (happend : ∀ ms ms', take (ms ++ ms') = take ms ++ take ms') :
    x.Shows take (take x.old) (take x.new) := by
  have hcons : ∀ m ms, take (m :: ms) = take [m] ++ take ms := fun m ms => happend [m] ms
  constructor
  · rw [old, happend, hcons, List.append_assoc]
  · rw [new, happend, hcons, List.append_assoc]

theorem shows_filterMap (keep : Member → Bool) (take : Member → Option α) :
    x.Shows (fun ms => (ms.filter keep).filterMap take) ((x.old.filter keep).filterMap take)
      ((x.new.filter keep).filterMap take) := by
  apply x.shows_of_append
  intro ms ms'
  rw [List.filter_append, List.filterMap_append]

end Exchange

namespace Source

/-- Sources that know the same of all types, except of the members that `name` declares. -/
structure AgreesBut (source source' : Source) (name : TypeName) : Prop where
  superType_eq : source'.superType = source.superType
  declaredMembers_eq : ∀ type, type ≠ name → source'.declaredMembers type = source.declaredMembers type

variable (source : Source) (config : Config) {source' : Source} {c : Component}

/-- What a component has from the types above it. -/
def inherited (c : Component) : List Member :=
  inheritedAlong source.declaredMembers c.members
    (ancestors source.superType c.name config.maxDepth)

theorem members_eq (c : Component) :
    source.members config c = source.inherited config c ++ c.members :=
  rfl

/-- Of the members nearer by, what is handed down along a chain depends on their keys alone. -/
theorem inheritedAlong_congr {declared declared' : TypeName → List Member} {own own' : List Member}
    {types : List TypeName} (hdeclared : ∀ type ∈ types, declared' type = declared type)
    (hown : own'.map Member.overrideKey = own.map Member.overrideKey) :
    inheritedAlong declared' own' types = inheritedAlong declared own types := by
  induction types generalizing own own' with
  | nil => rfl
  | cons type types ih =>
    have hkept : Member.handedDown own' (declared' type) = Member.handedDown own (declared type) := by
      rw [hdeclared type List.mem_cons_self]
      apply Member.handedDown_congr
      intro key
      rw [hown]
    have hnearer : (own' ++ Member.handedDown own' (declared' type)).map Member.overrideKey =
        (own ++ Member.handedDown own (declared type)).map Member.overrideKey := by
      rw [List.map_append, List.map_append, hown, hkept]
    have hrest := ih (fun t ht => hdeclared t (List.mem_cons_of_mem type ht)) hnearer
    exact congrArg₂ (· ++ ·) hrest hkept

namespace AgreesBut

variable {source config}

/-- Own members of the same keys hide the same, wherever the chain of types leads. -/
theorem inherited_eq (h : source.AgreesBut source' c.name) {own : List Member}
    (hown : own.map Member.overrideKey = c.members.map Member.overrideKey) :
    source'.inherited config { c with members := own } = source.inherited config c := by
  rw [inherited, inherited, h.superType_eq]
  apply inheritedAlong_congr _ hown
  intro type htype
  apply h.declaredMembers_eq
  rintro rfl
  exact notMem_ancestors c.name config.maxDepth htype

theorem memberFaults_eq (h : source.AgreesBut source' c.name) (m : Member) :
    source'.memberFaults config m = source.memberFaults config m := by
  obtain ⟨components, superType, declaredMembers⟩ := source
  obtain ⟨components', superType', declaredMembers'⟩ := source'
  obtain rfl : superType' = superType := h.superType_eq
  rfl

theorem keepsMember_eq (h : source.AgreesBut source' c.name) :
    source'.keepsMember config = source.keepsMember config := by
  funext m
  rw [keepsMember, keepsMember, h.memberFaults_eq]

theorem memberDiagnostics_eq (h : source.AgreesBut source' c.name) (own : List Member) (m : Member) :
    source'.memberDiagnostics config { c with members := own } m =
      source.memberDiagnostics config c m := by
  rw [memberDiagnostics, memberDiagnostics, h.memberFaults_eq]
  rfl

theorem componentFault_eq (h : source.AgreesBut source' c.name) (own : List Member) :
    source'.componentFault config { c with members := own } = source.componentFault config c := by
  rw [componentFault, componentFault, ascend, ascend, h.superType_eq]

end AgreesBut

/-- An own member that is exchanged for one of its key, however sound either of them is, is all that
changes: the component stays accepted, every other member is inherited, kept and reported as
before, and has its old place in what is bound. -/
theorem exchange_spares_siblings {source source' : Source} {c : Component}
    (h : source.AgreesBut source' c.name) (config : Config) (x : Exchange)
    (hc : c.members = x.old) (hkey : x.into.overrideKey = x.out.overrideKey) {v : Validated}
    (hv : (source.validate config c).value = some v) :
    let c' : Component := { c with members := x.new }
    let all := x.after (source.inherited config c)
    let kept := List.filter (source.keepsMember config)
    ∃ v', (source'.validate config c').value = some v' ∧
      all.Shows id (source.members config c) (source'.members config c') ∧
      all.Shows kept v.members v'.members ∧
      all.Shows (List.flatMap (source.memberDiagnostics config c))
        (source.validate config c).diagnostics (source'.validate config c').diagnostics ∧
      all.Shows (fun ms => (kept ms).filterMap Member.viewBinding?) v.binding.views
        v'.binding.views ∧
      all.Shows (fun ms => (kept ms).filterMap Member.hook?) v.binding.hooks v'.binding.hooks ∧
      all.Shows (fun ms => (kept ms).filterMap Member.clickBinding?) v.binding.clicks
        v'.binding.clicks ∧
      v'.binding = { v.binding with
        views := v'.binding.views, hooks := v'.binding.hooks, clicks := v'.binding.clicks } := by
  intro c' all kept
  have hkeys : x.new.map Member.overrideKey = c.members.map Member.overrideKey := by
    rw [x.map_overrideKey_new hkey, hc]
  have hold : source.members config c = all.old := by
    rw [members_eq, hc, ← x.old_after]
  have hnew : source'.members config c' = all.new := by
    rw [members_eq, h.inherited_eq hkeys, ← x.new_after]
  have hfault : source'.componentFault config c' = source.componentFault config c :=
    h.componentFault_eq x.new
  obtain ⟨fault, -, hrun⟩ | ⟨hsound, hrun⟩ := source.validate_cases config c
  · simp [hrun] at hv
  obtain ⟨fault, hf, -⟩ | ⟨-, hrun'⟩ := source'.validate_cases config c'
  · rw [hfault, hsound] at hf
    cases hf
  have hnoted : source'.memberDiagnostics config c' = source.memberDiagnostics config c :=
    funext (h.memberDiagnostics_eq x.new)
  rw [hold] at hrun
  rw [hnew, h.keepsMember_eq, hnoted] at hrun'
  rw [hrun, Option.some.injEq] at hv
  subst hv
  refine ⟨⟨c', kept all.new⟩, by rw [hrun'], ?_, ?_, ?_, ?_, ?_, ?_, rfl⟩
  · rw [hold, hnew]
    exact all.shows_of_append fun _ _ => rfl
  · exact all.shows_of_append List.filter_append
  · rw [hrun, hrun']
    exact all.shows_of_append fun _ _ => List.flatMap_append
  · exact all.shows_filterMap _ Member.viewBinding?
  · exact all.shows_filterMap _ Member.hook?
  · exact all.shows_filterMap _ Member.clickBinding?

end Source

namespace Declarations

/-- With the members of one component exchanged, all that is known of any type is the same, but for
the members of that name. -/
theorem agreesBut_exchange (d : Declarations) {cs cs' : List Component} {c : Component}
    (hd : d.components = cs ++ c :: cs') (own : List Member) :
    let d' : Declarations := { d with components := cs ++ { c with members := own } :: cs' }
    d.toSource.AgreesBut d'.toSource c.name := by
  intro d'
  have hfind : ∀ name, name ≠ c.name → d'.component? name = d.component? name := by
    intro name hne
    have hother : (c.name == name) = false := by simpa using hne.symm
    rw [component?, component?, hd, List.find?_append, List.find?_append,
      List.find?_cons_of_neg (by simp [hother]), List.find?_cons_of_neg (by simp [hother])]
  have hbase : ∀ name, (d'.component? name).bind Component.base =
      (d.component? name).bind Component.base := by
    intro name
    by_cases hname : c.name = name
    · subst hname
      rw [component?, component?, hd, List.find?_append, List.find?_append,
        List.find?_cons_of_pos (by simp), List.find?_cons_of_pos (by simp)]
      cases cs.find? fun earlier => earlier.name == c.name <;> rfl
    · rw [hfind name (Ne.symm hname)]
  constructor
  · funext name
    change d'.superType name = d.superType name
    rw [superType, superType, hbase]
  · intro type hne
    change d'.declaredMembers type = d.declaredMembers type
    rw [declaredMembers, declaredMembers, hfind type hne]

end Declarations

/-- A text that cannot be bound takes the place of a label; the inherited field that both hide stays
hidden, and the hook and the broken handler around it are kept and reported as before. -/
theorem Source.exchange_spares_siblings_label :
    let field (name type : String) (id : Int) : Member :=
      ⟨name, .field (.declared ⟨type⟩), [], some (.view id)⟩
    let label := field "label" "android.widget.TextView" 3
    let text := field "label" "java.lang.String" 4
    let setup : Member := ⟨"setup", .method [] .void, [], some .afterViews⟩
    let go : Member := ⟨"go", .method [] .void, [], some (.click [5])⟩
    let base : Component :=
      ⟨⟨"a.Base"⟩, "a", .«class», some ⟨"android.app.Activity"⟩, none,
        [field "label" "android.view.View" 1, field "logo" "android.view.View" 2]⟩
    let screen : Component :=
      ⟨⟨"a.Main"⟩, "a", .«class», some ⟨"a.Base"⟩, some 1, [setup, label, go]⟩
    let d := Declarations.ofComponents [base, screen]
    let x : Exchange := ⟨[setup], label, text, [go]⟩
    let screen' : Component := { screen with members := x.new }
    let source := d.toSource
    let source' := ({ d with components := [base, screen'] } : Declarations).toSource
    let kept := List.filter (source.keepsMember .standard)
    screen.members = x.old ∧ x.into.overrideKey = x.out.overrideKey ∧
      (source.validate .standard screen).value.isSome = true ∧
      source.inherited .standard screen = [field "logo" "android.view.View" 2] ∧
      kept [label] = [label] ∧ kept [text] = [] ∧
      ∃ v', (source'.validate .standard screen').value = some v' ∧
        v'.members = [field "logo" "android.view.View" 2, setup] ∧
        (x.after (source.inherited .standard screen)).Shows
          (List.flatMap (source.memberDiagnostics .standard screen))
          (source.validate .standard screen).diagnostics
          (source'.validate .standard screen').diagnostics := by
  intro field label text setup go base screen d x screen' source source' kept
  have hd : d.components = [base] ++ screen :: [] := rfl
  have hagree : source.AgreesBut source' screen.name := d.agreesBut_exchange hd x.new
  have hkey : x.into.overrideKey = x.out.overrideKey := by decide
  have hsome : (source.validate .standard screen).value.isSome = true := by decide +kernel
  obtain ⟨v, hv⟩ := Option.isSome_iff_exists.mp hsome
  obtain ⟨v', hv', -, hkept, hfound, -⟩ :=
    exchange_spares_siblings hagree .standard x rfl hkey hv
  refine ⟨rfl, hkey, hsome, by decide +kernel, by decide +kernel, by decide +kernel, v', hv', ?_,
    hfound⟩
  rw [hkept.2]
  decide +kernel

end ViewWiring
