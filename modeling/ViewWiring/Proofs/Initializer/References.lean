import ViewWiring.Proofs.Initializer.Statements

namespace ViewWiring

open Code

theorem Code.Method.refs_eq (m : Method) :
    m.refs = m.annotations ++ m.returns.refs ++ m.params.map Parameter.type ++
      m.statements.flatMap Statement.refs := by
  obtain ⟨name, annotations, modifiers, returns, params, sections⟩ := m
  rw [Method.refs, Statement.refsOfSections_eq_flatMap, Method.statements]

namespace ComponentBinding

variable (config : Config)

/-- The interface that the unnamed classes of listeners implement. -/
def listenerRef : ClassRef := (ClassRef.ofType config.platform.view).nested "OnClickListener"

theorem refs_clickArgument (c : ClickBinding) {r : ClassRef} (h : r ∈ (clickArgument config c).refs) :
    ∃ type, r = ClassRef.ofType type := by
  unfold clickArgument at h
  split at h
  · rename_i type _
    split at h
    · simp [Expr.refs] at h
    · exact ⟨type, by simpa [Expr.refs] using h⟩
  · simp [Expr.refs] at h

theorem refs_viewLookup (v : ViewBinding) {r : ClassRef} (h : r ∈ (viewLookup config v).refs) :
    r = ClassRef.ofType v.type := by
  rcases viewLookup_cases config v with hv | hv <;>
    simpa [hv, Statement.refs, Expr.refs, Expr.refsAll, findView] using h

theorem refs_clickListener (c : ClickBinding) (id : Int) :
    (clickListener config c id).refs =
      listenerRef config :: overrideRef :: ClassRef.ofType config.platform.view ::
        (clickArgument config c).refs := by
  simp [clickListener, Statement.refs, Expr.refs, Expr.refsAll, findView, Method.refsAll_eq_flatMap,
    Method.refs_eq, onClick, Method.statements, ResultType.refs, listenerRef]

theorem overrideRef_eq : overrideRef = ClassRef.ofType ⟨"java.lang.Override"⟩ := by
  decide +kernel

/-- What the statements of a generated file mention besides the interface of its listeners are
classes called by the last part of their names. -/
theorem mem_refs_of_statement {b : ComponentBinding} {f : SourceFile}
    (h : b.sourceFile config = .ok f) {s : Statement} (hs : s ∈ f.statements) {r : ClassRef}
    (hr : r ∈ s.refs) : r = listenerRef config ∨ ∃ type, r = ClassRef.ofType type := by
  obtain rfl | ⟨layout, -, rfl⟩ | ⟨v, -, rfl⟩ | ⟨hook, -, rfl⟩ | ⟨c, -, id, -, rfl⟩ :=
    statement_cases config h hs
  · exact absurd hr List.not_mem_nil
  · exact absurd hr List.not_mem_nil
  · exact .inr ⟨v.type, refs_viewLookup config v hr⟩
  · exact absurd hr List.not_mem_nil
  · rw [refs_clickListener] at hr
    simp only [List.mem_cons] at hr
    obtain hl | ho | hv | ha := hr
    · exact .inl hl
    · exact .inr ⟨_, ho.trans overrideRef_eq⟩
    · exact .inr ⟨_, hv⟩
    · exact .inr (refs_clickArgument config c ha)

/-- Nor does the file mention anything else but the class that it extends. -/
theorem mem_refs_of_sourceFile {b : ComponentBinding} {f : SourceFile}
    (h : b.sourceFile config = .ok f) {r : ClassRef} (hr : r ∈ f.refs) :
    r = ⟨b.package, b.relativeName⟩ ∨ r = listenerRef config ∨ ∃ type, r = ClassRef.ofType type := by
  obtain ⟨-, hf⟩ | ⟨layout, -, hf⟩ := b.sourceFile_cases config
  · simp [hf] at h
  have hstatements : ∀ s ∈ f.statements, r ∈ s.refs →
      r = listenerRef config ∨ ∃ type, r = ClassRef.ofType type :=
    fun s hs hr => mem_refs_of_statement config h hs hr
  rw [hf, Except.ok.injEq] at h
  subst h
  simp only [SourceFile.refs, Option.toList_some, List.singleton_append, List.mem_cons,
    Method.refsAll_eq_flatMap, List.flatMap_cons, List.flatMap_nil, List.append_nil,
    Method.refs_eq, List.mem_append, List.mem_flatMap] at hr
  obtain hsuper | ((hmark | hreturns) | hparam) | ⟨s, hs, hr⟩ := hr
  · exact .inl hsuper
  · have ho : r = overrideRef := by simpa [onCreate] using hmark
    exact .inr (.inr ⟨_, ho.trans overrideRef_eq⟩)
  · simp [onCreate, ResultType.refs] at hreturns
  · have hb : r = ClassRef.ofType config.platform.bundle := by simpa [onCreate] using hparam
    exact .inr (.inr ⟨_, hb⟩)
  · have hmem : s ∈ SourceFile.statements ⟨b.package, b.className config, [.«public»],
        some ⟨b.package, b.relativeName⟩, [b.onCreate config layout]⟩ := by
      simpa [SourceFile.statements] using hs
    exact .inr (hstatements s hmem hr)

end ComponentBinding

end ViewWiring
