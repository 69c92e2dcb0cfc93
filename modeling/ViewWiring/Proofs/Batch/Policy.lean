import ViewWiring.Proofs.Batch.Emission
import ViewWiring.Proofs.Validation.Policy
import ViewWiring.Source.Declarations
import Mathlib.Data.List.Forall2

namespace ViewWiring

/-- Artifacts of one class, whatever their texts. -/
structure Artifact.SameClass (a a' : Artifact) : Prop where
  package_eq : a.package = a'.package
  className_eq : a.className = a'.className

/-- A writer that never looks at texts: in states that are alike it gives one answer to artifacts of
one class, and goes on to states that are alike. -/
structure Writer.IgnoresTexts {σ : Type} (write : Writer (StateM σ)) (alike : σ → σ → Prop) :
    Prop where
  answer_eq : ∀ {a a' : Artifact} {s s' : σ}, a.SameClass a' → alike s s' →
    ((write a).run s).1 = ((write a').run s').1
  alike_after : ∀ {a a' : Artifact} {s s' : σ}, a.SameClass a' → alike s s' →
    alike ((write a).run s).2 ((write a').run s').2

theorem Writer.IgnoresTexts.mapM_eq {σ : Type} {write : Writer (StateM σ)} {alike : σ → σ → Prop}
    (hw : Writer.IgnoresTexts write alike) {as as' : List Artifact}
    (has : List.Forall₂ Artifact.SameClass as as') {s s' : σ} (hs : alike s s') :
    ((as.mapM write).run s).1 = ((as'.mapM write).run s').1 := by
  induction has generalizing s s' with
  | nil => rfl
  | @cons a a' as as' ha _ ih =>
    have hanswer := hw.answer_eq ha hs
    have hrest := ih (hw.alike_after ha hs)
    rw [List.mapM_cons, List.mapM_cons]
    exact congrArg₂ List.cons hanswer hrest

namespace ComponentBinding

/-- Bindings of one component, whatever they wire. -/
structure SameComponent (b b' : ComponentBinding) : Prop where
  component_eq : b.component = b'.component
  package_eq : b.package = b'.package
  relativeName_eq : b.relativeName = b'.relativeName
  layout_eq : b.layout = b'.layout

variable (config : Config) (policy policy' : SignaturePolicy)

/-- Either nothing is generated for both, or artifacts of one class are. -/
theorem SameComponent.artifact? {b b' : ComponentBinding} (h : b.SameComponent b') :
    Option.Rel Artifact.SameClass (b.artifact? (config.under policy))
      (b'.artifact? (config.under policy')) := by
  have hclass : b.className (config.under policy) = b'.className (config.under policy') := by
    rw [className, className, simpleName, simpleName, h.component_eq]
    rfl
  cases ha : b.artifact? (config.under policy) with
  | none =>
    cases ha' : b'.artifact? (config.under policy') with
    | none => exact .none
    | some a' =>
      have hlayout := (artifact?_eq_none_iff _ _).mp ha
      rw [h.layout_eq, ← artifact?_eq_none_iff (config.under policy'), ha'] at hlayout
      cases hlayout
  | some a =>
    obtain ⟨hp, hn⟩ := named_of_artifact? ha
    cases ha' : b'.artifact? (config.under policy') with
    | none =>
      have hlayout := (artifact?_eq_none_iff _ _).mp ha'
      rw [← h.layout_eq, ← artifact?_eq_none_iff (config.under policy), ha] at hlayout
      cases hlayout
    | some a' =>
      obtain ⟨hp', hn'⟩ := named_of_artifact? ha'
      refine .some ⟨?_, ?_⟩
      · rw [hp, hp', h.package_eq]
      · rw [hn, hn', hclass]

/-- What is reported on bindings depends on their components and on the writer's answers alone. -/
theorem reportOn_under {bs bs' : List ComponentBinding} (h : List.Forall₂ SameComponent bs bs')
    (answers : List (Except WriteFailure Unit)) :
    reportOn (config.under policy) bs answers = reportOn (config.under policy') bs' answers := by
  induction h generalizing answers with
  | nil => rfl
  | @cons b b' bs bs' hb _ ih =>
    have hmissing : b.missingLayout = b'.missingLayout := by
      rw [missingLayout, missingLayout, hb.component_eq, hb.relativeName_eq]
    have hsettled : b.settled = b'.settled := by
      funext answer
      cases answer <;> simp only [settled, emissionFailure, hb.component_eq]
    have hartifact := hb.artifact? config policy policy'
    simp only [reportOn, hmissing, hsettled, hb.component_eq]
    generalize b.artifact? (config.under policy) = a at hartifact ⊢
    generalize b'.artifact? (config.under policy') = a' at hartifact ⊢
    cases hartifact with
    | none => simp only [ih]
    | some ha =>
      cases answers with
      | nil => exact ih []
      | cons answer answers => simp only [ih]

end ComponentBinding

namespace Source

variable (source : Source) (config : Config) (policy policy' : SignaturePolicy)

theorem intakeOf_under (seen : List TypeName) (cs : List Component) :
    let intake := source.intakeOf (config.under policy) seen cs
    let intake' := source.intakeOf (config.under policy') seen cs
    intake.report = intake'.report ∧
      List.Forall₂ (fun v v' => v.component = v'.component) intake.validated intake'.validated := by
  induction cs generalizing seen with
  | nil => exact ⟨rfl, .nil⟩
  | cons c cs ih =>
    intro intake intake'
    by_cases hseen : c.name ∈ seen
    · obtain ⟨hreport, hvalidated⟩ := ih seen
      simp only [intake, intake', intakeOf, if_pos hseen]
      exact ⟨by rw [hreport], hvalidated⟩
    · obtain ⟨hreport, hvalidated⟩ := ih (c.name :: seen)
      simp only [intake, intake', intakeOf, if_neg hseen]
      obtain ⟨ds, hv, hv'⟩ | ⟨members, members', ds, hv, hv'⟩ :=
        source.validate_under_cases config c policy policy'
      · simp only [hv, hv', hreport]
        exact ⟨trivial, hvalidated⟩
      · simp only [hv, hv', hreport]
        exact ⟨trivial, .cons rfl hvalidated⟩

theorem intake_under :
    let intake := source.intake (config.under policy)
    let intake' := source.intake (config.under policy')
    intake.report = intake'.report ∧
      List.Forall₂ (fun v v' => v.component = v'.component) intake.validated intake'.validated := by
  rw [intake_eq, intake_eq]
  exact source.intakeOf_under config policy policy' [] source.components

theorem bindings_under :
    List.Forall₂ ComponentBinding.SameComponent (source.bindings (config.under policy))
      (source.bindings (config.under policy')) := by
  have hvalidated := (source.intake_under config policy policy').2
  rw [bindings, bindings, List.forall₂_map_left_iff, List.forall₂_map_right_iff]
  apply hvalidated.imp
  intro v v' hc
  constructor <;> simp only [Validated.binding, hc]

theorem artifacts_under :
    List.Forall₂ Artifact.SameClass (source.artifacts (config.under policy))
      (source.artifacts (config.under policy')) :=
  List.rel_filterMap (fun _ _ hb => hb.artifact? config policy policy')
    (source.bindings_under config policy policy')

theorem process_under {σ : Type} {write : Writer (StateM σ)} {alike : σ → σ → Prop}
    (hw : Writer.IgnoresTexts write alike) {s s' : σ} (hs : alike s s') :
    ((source.process (config.under policy) write).run s).1 =
      ((source.process (config.under policy') write).run s').1 := by
  have hintake : (source.intake (config.under policy)).report =
      (source.intake (config.under policy')).report :=
    (source.intake_under config policy policy').1
  have hanswers := hw.mapM_eq (source.artifacts_under config policy policy') hs
  have hemitted := ComponentBinding.reportOn_under config policy policy'
    (source.bindings_under config policy policy')
  rw [source.report_process, source.report_process, hintake, hanswers, hemitted]

/-- The signature policy decides about nothing but which called methods are kept: whatever the batch,
two runs report the same, diagnostics and all, to a writer that ignores texts, and of each component
the strict policy keeps what the permissive one keeps but for the faulty calls. -/
theorem policies_agree {σ : Type} {write : Writer (StateM σ)} {alike : σ → σ → Prop}
    (hw : Writer.IgnoresTexts write alike) {s s' : σ} (hs : alike s s') :
    (∀ policy policy', ((source.process (config.under policy) write).run s).1 =
      ((source.process (config.under policy') write).run s').1) ∧
    ∀ c, let strict := source.validate (config.under .strict) c
      let permissive := source.validate (config.under .permissive) c
      strict.diagnostics = permissive.diagnostics ∧
      strict.value.isSome = permissive.value.isSome ∧
      ∀ v v', strict.value = some v → permissive.value = some v' →
        v.members.Sublist v'.members ∧
        v.members = v'.members.filter (fun m => !source.isFaultyCall config c m) ∧
        v'.members.filter (source.isFaultyCall config c) =
          (source.members config c).filter (source.isFaultyCall config c) := by
  refine ⟨fun policy policy' => source.process_under config policy policy' hw hs, ?_⟩
  intro c strict permissive
  have hboth : strict.diagnostics = permissive.diagnostics ∧
      strict.value.isSome = permissive.value.isSome := by
    obtain ⟨ds, hv, hv'⟩ | ⟨members, members', ds, hv, hv'⟩ :=
      source.validate_under_cases config c .strict .permissive
    · simp [strict, permissive, hv, hv']
    · simp [strict, permissive, hv, hv']
  refine ⟨hboth.1, hboth.2, ?_⟩
  intro v v' hv hv'
  obtain ⟨hkept, hfaulty⟩ :=
    source.filter_keepsMember_under config c (source.members config c)
  have hmembers : v.members =
      (source.members config c).filter (source.keepsMember (config.under .strict)) :=
    source.members_of_validate (config.under .strict) c hv
  have hmembers' : v'.members =
      (source.members config c).filter (source.keepsMember (config.under .permissive)) :=
    source.members_of_validate (config.under .permissive) c hv'
  have hdropped : v.members = v'.members.filter fun m => !source.isFaultyCall config c m := by
    rw [hmembers, hmembers', hkept]
  refine ⟨?_, hdropped, ?_⟩
  · rw [hdropped]
    exact List.filter_sublist
  · rw [hmembers', hfaulty]

/-- One writer refuses one of two classes and remembers all that it was offered; a hook with a
parameter is called under one policy only, and nobody hears of it. -/
theorem policies_agree_gate :
    let write : Writer (StateM (List String)) := fun a => do
      modify (a.className :: ·)
      pure (if a.className = "Gate_" then .error ⟨a.className, "read-only"⟩ else .ok ())
    let ready : Member :=
      ⟨"ready", .method [.declared ⟨"android.view.View"⟩] .void, [], some .afterViews⟩
    let done : Member := ⟨"done", .method [] .void, [], some .afterViews⟩
    let screen (name : String) : Component :=
      ⟨⟨name⟩, "a", .«class», some ⟨"android.app.Activity"⟩, some 1, [ready, done]⟩
    let source := (Declarations.ofComponents [screen "a.Main", screen "a.Gate"]).toSource
    let report (policy : SignaturePolicy) :=
      ((source.process (Config.standard.under policy) write).run []).1
    let kept (policy : SignaturePolicy) :=
      (source.validate (Config.standard.under policy) (screen "a.Main")).value.map Validated.members
    Writer.IgnoresTexts write (· = ·) ∧ report .strict = report .permissive ∧
      (report .strict).generated = [⟨"a.Main"⟩] ∧ (report .strict).count = 3 ∧
      kept .strict = some [done] ∧ kept .permissive = some [ready, done] := by
  intro write ready done screen source report kept
  have hw : Writer.IgnoresTexts write (· = ·) := by
    constructor
    · rintro a a' s s' ha rfl
      simp [write, ha.className_eq]
    · rintro a a' s s' ha rfl
      simp [write, ha.className_eq]
  have hreports := (policies_agree source .standard hw (rfl : ([] : List String) = [])).1
  exact ⟨hw, hreports .strict .permissive, by decide +kernel, by decide +kernel, by decide +kernel,
    by decide +kernel⟩

end Source

end ViewWiring
