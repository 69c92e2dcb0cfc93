import ViewWiring.Proofs.Batch.Refusals
import ViewWiring.Proofs.Inheritance.Subclass

namespace ViewWiring

/-- The component that a diagnostic is about, by itself or by one of its members. -/
def Diagnostic.subject? (d : Diagnostic) : Option TypeName := d.anchor.map Diagnostic.Anchor.component

/-- Of what is reported of components in turn, the part of each is found by what it is about, if their
names differ. -/
theorem filter_subject_flatMap {report : Component → List Diagnostic}
    (hreport : ∀ c, ∀ d ∈ report c, d.subject? = some c.name) {cs : List Component}
    (hnames : (cs.map Component.name).Nodup) {c : Component} (hc : c ∈ cs) :
    (cs.flatMap report).filter (fun d => d.subject? == some c.name) = report c := by
  have hothers : ∀ cs' : List Component, c.name ∉ cs'.map Component.name →
      (cs'.flatMap report).filter (fun d => d.subject? == some c.name) = [] := by
    intro cs' hn
    rw [List.filter_flatMap, List.flatMap_eq_nil_iff]
    intro c' hc'
    rw [List.filter_eq_nil_iff]
    intro d hd
    have hne : c'.name ≠ c.name := fun he => hn (he ▸ List.mem_map_of_mem hc')
    simpa [hreport c' d hd] using hne
  have hown : (report c).filter (fun d => d.subject? == some c.name) = report c := by
    rw [List.filter_eq_self]
    intro d hd
    simp [hreport c d hd]
  obtain ⟨before, after, rfl⟩ := List.append_of_mem hc
  rw [List.map_append, List.map_cons, List.nodup_append, List.nodup_cons] at hnames
  obtain ⟨-, ⟨hafter, -⟩, hapart⟩ := hnames
  have hbefore : c.name ∉ before.map Component.name :=
    fun hm => hapart _ hm _ List.mem_cons_self rfl
  rw [List.flatMap_append, List.flatMap_cons, List.filter_append, List.filter_append,
    hothers before hbefore, hothers after hafter, hown, List.nil_append, List.append_nil]

/-- A writer that never refuses an artifact. -/
def Writer.TakesAll {σ : Type} (write : Writer (StateM σ)) : Prop :=
  ∀ a s, ((write a).run s).1 = .ok ()

theorem Writer.TakesAll.run_mapM {σ : Type} {write : Writer (StateM σ)} (hw : write.TakesAll)
    (as : List Artifact) (s : σ) : ((as.mapM write).run s).1 = as.map fun _ => .ok () := by
  induction as generalizing s with
  | nil => rfl
  | cons a as ih =>
    rw [List.mapM_cons, List.map_cons]
    exact congrArg₂ List.cons (hw a s) (ih ((write a).run s).2)

theorem accepted_eq_self {names : List TypeName} {offers : List Offer}
    (hlength : names.length ≤ offers.length) (htaken : ∀ o ∈ offers, o.refusal? = none) :
    accepted names offers = names := by
  have hall : (names.zip offers).filter (fun p => p.2.refusal?.isNone) = names.zip offers := by
    rw [List.filter_eq_self]
    intro p hp
    rw [htaken p.2 (List.of_mem_zip hp).2, Option.isNone_none]
  rw [accepted, hall, List.map_fst_zip hlength]

theorem refused_eq_nil {names : List TypeName} {offers : List Offer}
    (htaken : ∀ o ∈ offers, o.refusal? = none) : refused names offers = [] := by
  rw [refused, List.filterMap_eq_nil_iff]
  intro p hp
  rw [htaken p.2 (List.of_mem_zip hp).2, Option.map_none]

namespace Source

section Distinct

variable {seen : List TypeName} {c : Component} {cs : List Component}

theorem unseen_of_nodup_cons (hnames : ((c :: cs).map Component.name).Nodup)
    (hseen : ∀ c' ∈ c :: cs, c'.name ∉ seen) : ∀ c' ∈ cs, c'.name ∉ c.name :: seen := by
  rw [List.map_cons, List.nodup_cons] at hnames
  intro c' hc' hm
  rcases List.mem_cons.mp hm with he | hm
  · exact hnames.1 (he ▸ List.mem_map_of_mem hc')
  · exact hseen c' (List.mem_cons_of_mem c hc') hm

theorem firstMet_eq_self (hnames : (cs.map Component.name).Nodup)
    (hseen : ∀ c ∈ cs, c.name ∉ seen) : firstMet seen cs = cs := by
  induction cs generalizing seen with
  | nil => rfl
  | cons c cs ih =>
    have hrest := unseen_of_nodup_cons hnames hseen
    rw [firstMet, if_neg (hseen c List.mem_cons_self), ih (List.nodup_cons.mp hnames).2 hrest]

theorem intakeOf_diagnostics (source : Source) (config : Config)
    (hnames : (cs.map Component.name).Nodup) (hseen : ∀ c ∈ cs, c.name ∉ seen) :
    (source.intakeOf config seen cs).report.diagnostics =
      cs.flatMap fun c => (source.validate config c).diagnostics := by
  induction cs generalizing seen with
  | nil => rfl
  | cons c cs ih =>
    have hrest := unseen_of_nodup_cons hnames hseen
    rw [intakeOf, if_neg (hseen c List.mem_cons_self), List.flatMap_cons,
      ← ih (List.nodup_cons.mp hnames).2 hrest]
    split
    all_goals
      rename_i hv
      rw [hv]
      rfl

end Distinct

variable (source : Source) (config : Config)

/-- What is reported of a component that is bound, but has no layout. -/
def missing (c : Component) : List Diagnostic :=
  ((source.boundAs? config c).toList.filter fun b => b.layout.isNone).map
    ComponentBinding.missingLayout

/-- A batch of components of which each is treated as it would be on its own, in their order: this is
what is reported and offered if nothing is refused. -/
structure TreatsEach (cs : List Component) (report : Report) (offers : List Offer) : Prop where
  offered_eq : offers.map Offer.artifact = cs.filterMap (source.generatedAs? config)
  generated_eq : report.generated =
    (cs.filter fun c => (source.generatedAs? config c).isSome).map Component.name
  failed_eq : report.failed =
    (cs.filter fun c => (source.boundAs? config c).isNone).map Component.name ++
      (cs.filter fun c => (source.boundAs? config c).any fun b => b.layout.isNone).map Component.name
  diagnostics_eq : report.diagnostics =
    (cs.flatMap fun c => (source.validate config c).diagnostics) ++
      cs.flatMap (source.missing config)

theorem subject_of_mem_validate (c : Component) :
    ∀ d ∈ (source.validate config c).diagnostics, d.subject? = some c.name := by
  obtain ⟨fault, -, hv⟩ | ⟨-, hv⟩ := source.validate_cases config c
  · rw [hv]
    cases fault <;> simp [Component.Fault.diagnostic, Diagnostic.subject?, Component.anchor]
  · rw [hv]
    simp only [List.mem_flatMap, memberDiagnostics, List.mem_map]
    rintro d ⟨m, -, fault, -, rfl⟩
    rw [Diagnostic.subject?, Member.Fault.anchor_diagnostic]
    rfl

theorem subject_of_mem_missing (c : Component) :
    ∀ d ∈ source.missing config c, d.subject? = some c.name := by
  simp only [missing, List.mem_map, List.mem_filter, Option.mem_toList]
  rintro d ⟨b, ⟨hb, -⟩, rfl⟩
  rw [← source.component_of_boundAs? config hb]
  rfl

theorem wholeComponents_validate (cs : List Component) :
    (cs.flatMap fun c => (source.validate config c).diagnostics).filterMap
        Diagnostic.wholeComponent? =
      (cs.filter fun c => (source.boundAs? config c).isNone).map Component.name := by
  induction cs with
  | nil => rfl
  | cons c cs ih =>
    have hbound : (source.boundAs? config c).isNone = !(source.validate config c).value.isSome := by
      rw [boundAs?, Option.isNone_map, Option.not_isSome]
    rw [List.flatMap_cons, List.filterMap_append, ih, wholeComponent_validate, List.filter_cons,
      hbound]
    cases (source.validate config c).value.isSome <;> rfl

theorem wholeComponents_missing (cs : List Component) :
    (cs.flatMap (source.missing config)).filterMap Diagnostic.wholeComponent? =
      (cs.filter fun c => (source.boundAs? config c).any fun b => b.layout.isNone).map
        Component.name := by
  induction cs with
  | nil => rfl
  | cons c cs ih =>
    rw [List.flatMap_cons, List.filterMap_append, ih, List.filter_cons, missing]
    cases hb : source.boundAs? config c with
    | none => rfl
    | some b =>
      have hname := source.component_of_boundAs? config hb
      cases hl : b.layout with
      | none => simp [hl, ← hname, ComponentBinding.missingLayout, Diagnostic.wholeComponent?]
      | some layout => simp [hl]

variable {source} {σ : Type} {write : Writer (StateM σ)}

theorem refusal?_of_mem_recorded (hw : write.TakesAll) (s : σ) :
    ∀ o ∈ ((source.process config write.recorded).run (s, [])).2.2, o.refusal? = none := by
  intro o ho
  rw [source.process_recorded, hw.run_mapM, List.zipWith_map_right, List.zipWith_self,
    List.mem_map] at ho
  obtain ⟨a, -, rfl⟩ := ho
  rfl

theorem process_treatsEach (hnames : (source.components.map Component.name).Nodup)
    (hw : write.TakesAll) (s : σ) :
    let run := (source.process config write.recorded).run (s, [])
    source.TreatsEach config source.components run.1 run.2.2 := by
  intro run
  have hcharges : source.ChargesRefusals config run.1 run.2.2 :=
    source.process_chargesRefusals config write s
  have htaken : ∀ o ∈ run.2.2, o.refusal? = none := refusal?_of_mem_recorded config hw s
  have hfirst : firstMet [] source.components = source.components :=
    firstMet_eq_self hnames fun _ _ => List.not_mem_nil
  have hbindings : source.bindings config =
      source.components.filterMap (source.boundAs? config) := by
    rw [bindings_eq, hfirst]
  have hdiagnostics : run.1.diagnostics =
      (source.components.flatMap fun c => (source.validate config c).diagnostics) ++
        source.components.flatMap (source.missing config) := by
    have hnone := hcharges.refusals_eq
    rw [refused_eq_nil htaken, List.map_nil, List.filter_eq_nil_iff] at hnone
    have hall : run.1.diagnostics.filter (fun d => !d.isRefusal) = run.1.diagnostics := by
      rw [List.filter_eq_self]
      intro d hd
      simpa using hnone d hd
    have hmissing : ((source.bindings config).filter fun b => b.layout.isNone).map
        ComponentBinding.missingLayout = source.components.flatMap (source.missing config) := by
      rw [hbindings, List.filterMap_eq_flatMap_toList, List.filter_flatMap, List.map_flatMap]
      rfl
    rw [← hall, hcharges.others_eq, standing, hmissing, intake_eq,
      source.intakeOf_diagnostics config hnames fun _ _ => List.not_mem_nil]
  refine ⟨?_, ?_, ?_, hdiagnostics⟩
  · rw [source.map_artifact_recorded, artifacts, hbindings, List.filterMap_filterMap]
    rfl
  · have hlength : (source.offering config).length ≤ run.2.2.length := by
      have hl := congrArg List.length hcharges.offered
      rw [List.length_map, List.length_map] at hl
      omega
    rw [hcharges.generated_eq, accepted_eq_self hlength htaken, ← source.map_component_generating,
      generating, hbindings, generating_filterMap]
  · rw [source.process_failed config write.recorded (s, []), hdiagnostics, List.filterMap_append,
      wholeComponents_validate, wholeComponents_missing]

end Source

namespace Declarations

variable {d : Declarations} {cs : List Component}

/-- In whatever order components of different names stand, a name finds the same one. -/
theorem component?_perm (hnames : (d.components.map Component.name).Nodup)
    (hperm : cs.Perm d.components) (name : TypeName) :
    ({ d with components := cs } : Declarations).component? name = d.component? name := by
  let d' : Declarations := { d with components := cs }
  have hnames' : (d'.components.map Component.name).Nodup :=
    ((hperm.map Component.name).nodup_iff).mpr hnames
  cases hfind : d.component? name with
  | some c =>
    have hname : c.name = name := by simpa using List.find?_some hfind
    have hc : c ∈ d'.components := hperm.mem_iff.mpr (List.mem_of_find?_eq_some hfind)
    rw [← hname]
    exact component?_of_mem hnames' hc
  | none =>
    have hnone := List.find?_eq_none.mp hfind
    rw [component?, List.find?_eq_none]
    intro c hc
    exact hnone c (hperm.mem_iff.mp hc)

/-- What is known of types does not depend on the order of the components. -/
theorem toSource_perm (hnames : (d.components.map Component.name).Nodup)
    (hperm : cs.Perm d.components) :
    ({ d with components := cs } : Declarations).toSource = { d.toSource with components := cs } := by
  have hfind := component?_perm hnames hperm
  have hsuper : ({ d with components := cs } : Declarations).superType = d.superType := by
    funext name
    rw [superType, superType, hfind]
  have hdeclared : ({ d with components := cs } : Declarations).declaredMembers =
      d.declaredMembers := by
    funext name
    rw [declaredMembers, declaredMembers, hfind]
  rw [toSource, hsuper, hdeclared]
  rfl

/-- The order of a batch decides in which order its components are reported and nothing else: for
components of different names and a writer that takes all, each is judged and generated as it is in
any other order, and of each the same is reported, in the same order. -/
theorem batch_order_irrelevant (hnames : (d.components.map Component.name).Nodup)
    (hperm : cs.Perm d.components) (config : Config) {σ : Type} {write : Writer (StateM σ)}
    (hw : write.TakesAll) (s : σ) :
    let d' : Declarations := { d with components := cs }
    let run := (d.toSource.process config write.recorded).run (s, [])
    let run' := (d'.toSource.process config write.recorded).run (s, [])
    (∀ c, d'.toSource.validate config c = d.toSource.validate config c) ∧
    d.toSource.TreatsEach config d.components run.1 run.2.2 ∧
    d.toSource.TreatsEach config cs run'.1 run'.2.2 ∧
    ∀ c ∈ d.components,
      run'.1.diagnostics.filter (fun found => found.subject? == some c.name) =
        run.1.diagnostics.filter (fun found => found.subject? == some c.name) := by
  intro d' run run'
  have hnames' : (cs.map Component.name).Nodup := ((hperm.map Component.name).nodup_iff).mpr hnames
  have hsource : d'.toSource = { d.toSource with components := cs } := toSource_perm hnames hperm
  have hrun : d.toSource.TreatsEach config d.components run.1 run.2.2 :=
    Source.process_treatsEach config hnames hw s
  have hrun' : d.toSource.TreatsEach config cs run'.1 run'.2.2 := by
    have h : d'.toSource.TreatsEach config cs run'.1 run'.2.2 :=
      Source.process_treatsEach config hnames' hw s
    rw [hsource] at h
    -- a judgement of a component never looks at the list of components
    exact ⟨h.offered_eq, h.generated_eq, h.failed_eq, h.diagnostics_eq⟩
  refine ⟨?_, hrun, hrun', ?_⟩
  · intro c
    rw [hsource]
    rfl
  · intro c hc
    have hvalidated := d.toSource.subject_of_mem_validate config
    have hmissing := d.toSource.subject_of_mem_missing config
    have hc' : c ∈ cs := hperm.mem_iff.mpr hc
    rw [hrun.diagnostics_eq, hrun'.diagnostics_eq, List.filter_append, List.filter_append,
      filter_subject_flatMap hvalidated hnames hc, filter_subject_flatMap hmissing hnames hc,
      filter_subject_flatMap hvalidated hnames' hc', filter_subject_flatMap hmissing hnames' hc']

/-- A subclass comes before its base or after it: what it inherits, and what is wrong with its own
member, stays the same. -/
theorem batch_order_irrelevant_subclass :
    let view (name : String) (type : String) (id : Int) : Member :=
      ⟨name, .field (.declared ⟨type⟩), [], some (.view id)⟩
    let base : Component :=
      ⟨⟨"a.Base"⟩, "a", .«class», some ⟨"android.app.Activity"⟩, none,
        [view "title" "android.view.View" 1]⟩
    let screen : Component :=
      ⟨⟨"a.Main"⟩, "a", .«class», some ⟨"a.Base"⟩, some 1, [view "text" "java.lang.String" 2]⟩
    let plain : Component := ⟨⟨"a.Plain"⟩, "a", .«class», none, some 2, []⟩
    let d := Declarations.ofComponents [screen, base, plain]
    let cs := [plain, base, screen]
    let d' : Declarations := { d with components := cs }
    let run := (d.toSource.process .standard Store.writer.recorded).run (.empty, [])
    let run' := (d'.toSource.process .standard Store.writer.recorded).run (.empty, [])
    (d.components.map Component.name).Nodup ∧ cs.Perm d.components ∧ Store.writer.TakesAll ∧
      d.toSource.TreatsEach .standard cs run'.1 run'.2.2 ∧
      run.1.generated = [⟨"a.Main"⟩] ∧ run'.1.generated = [⟨"a.Main"⟩] ∧
      run.1.failed = [⟨"a.Plain"⟩, ⟨"a.Base"⟩] ∧
      run.1.diagnostics.map Diagnostic.subject? =
        [some ⟨"a.Main"⟩, some ⟨"a.Plain"⟩, some ⟨"a.Base"⟩] ∧
      run'.1.diagnostics.map Diagnostic.subject? =
        [some ⟨"a.Plain"⟩, some ⟨"a.Main"⟩, some ⟨"a.Base"⟩] ∧
      run'.1.diagnostics.filter (fun found => found.subject? == some screen.name) =
        run.1.diagnostics.filter (fun found => found.subject? == some screen.name) := by
  intro view base screen plain d cs d' run run'
  have hnames : (d.components.map Component.name).Nodup := by decide +kernel
  have hperm : cs.Perm d.components := by decide +kernel
  have hw : Store.writer.TakesAll := fun _ _ => rfl
  obtain ⟨-, -, hrun', hfound⟩ := batch_order_irrelevant hnames hperm .standard hw .empty
  exact ⟨hnames, hperm, hw, hrun', by decide +kernel, by decide +kernel, by decide +kernel,
    by decide +kernel, by decide +kernel, hfound screen (by decide +kernel)⟩

end Declarations

end ViewWiring
