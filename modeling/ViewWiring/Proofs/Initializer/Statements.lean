import ViewWiring.Binding.Build
import ViewWiring.Code.Initializer

namespace ViewWiring

open Code

def Code.SourceFile.statements (f : SourceFile) : List Statement :=
  f.methods.flatMap Method.statements

namespace Member

variable {m : Member}

theorem viewBinding?_eq_some_iff {view : ViewBinding} :
    m.viewBinding? = some view ↔
      ∃ id type, m.directive = some (.view id) ∧ m.shape = .field (.declared type) ∧
        view = ⟨id, m.name, type⟩ := by
  unfold viewBinding?
  split
  · rename_i id type hd hs
    simp [hd, hs, eq_comm]
  · rename_i hn
    simp only [reduceCtorEq, false_iff]
    rintro ⟨id, type, hd, hs, -⟩
    exact hn id type hd hs

theorem hook?_eq_some_iff {hook : String} :
    m.hook? = some hook ↔ m.directive = some .afterViews ∧ hook = m.name := by
  unfold hook?
  split
  · rename_i hd
    simp [hd, eq_comm]
  · rename_i hn
    simp only [reduceCtorEq, false_iff]
    exact fun h => hn h.1

theorem clickBinding?_eq_some_iff {click : ClickBinding} :
    m.clickBinding? = some click ↔
      ∃ ids, m.directive = some (.click ids) ∧ click = ⟨m.name, ids, m.onlyParam?⟩ := by
  unfold clickBinding?
  split
  · rename_i ids hd
    simp [hd, eq_comm]
  · rename_i hn
    simp only [reduceCtorEq, false_iff]
    rintro ⟨ids, hd, -⟩
    exact hn ids hd

theorem onlyParam?_eq_some_iff {type : TypeName} :
    m.onlyParam? = some type ↔ ∃ returns, m.shape = .method [.declared type] returns := by
  unfold onlyParam?
  split
  · rename_i param returns hs
    cases param <;> simp [hs, TypeRef.declaredName?]
  · rename_i hn
    simp only [reduceCtorEq, false_iff]
    rintro ⟨returns, hs⟩
    exact hn _ _ hs

end Member

theorem mem_views {v : Validated} {view : ViewBinding} :
    view ∈ v.binding.views ↔
      ∃ m ∈ v.members, ∃ id type, m.directive = some (.view id) ∧
        m.shape = .field (.declared type) ∧ view = ⟨id, m.name, type⟩ := by
  simp only [Validated.binding, List.mem_filterMap, Member.viewBinding?_eq_some_iff]

theorem mem_hooks {v : Validated} {hook : String} :
    hook ∈ v.binding.hooks ↔
      ∃ m ∈ v.members, m.directive = some .afterViews ∧ hook = m.name := by
  simp only [Validated.binding, List.mem_filterMap, Member.hook?_eq_some_iff]

theorem mem_clicks {v : Validated} {click : ClickBinding} :
    click ∈ v.binding.clicks ↔
      ∃ m ∈ v.members, ∃ ids, m.directive = some (.click ids) ∧
        click = ⟨m.name, ids, m.onlyParam?⟩ := by
  simp only [Validated.binding, List.mem_filterMap, Member.clickBinding?_eq_some_iff]

namespace ComponentBinding

variable (config : Config)

/-- All that generation can do: refuse a binding without a layout, or make its one method. -/
theorem sourceFile_cases (b : ComponentBinding) :
    (b.layout = none ∧ b.sourceFile config = .error b.missingLayout) ∨
    ∃ layout, b.layout = some layout ∧
      b.sourceFile config = .ok
        { package := b.package
          className := b.className config
          modifiers := [.«public»]
          superclass := some ⟨b.package, b.relativeName⟩
          methods := [b.onCreate config layout] } := by
  unfold sourceFile
  cases h : b.layout with
  | none => exact .inl ⟨rfl, rfl⟩
  | some layout => exact .inr ⟨layout, rfl, rfl⟩

/-- The statements of a generated file, apart from how they are set. -/
theorem statements_of_sourceFile {b : ComponentBinding} {f : SourceFile}
    (h : b.sourceFile config = .ok f) :
    ∃ layout, b.layout = some layout ∧
      f.statements =
        [.expr (.call (some .super) onCreateName [.ident savedStateName]),
          .expr (.call none "setContentView" [.int layout])] ++
        b.views.map (viewLookup config) ++ b.hooks.map hookCall ++
        b.clicks.flatMap (clickListeners config) := by
  obtain ⟨-, hf⟩ | ⟨layout, hl, hf⟩ := b.sourceFile_cases config
  · simp [hf] at h
  · rw [hf, Except.ok.injEq] at h
    refine ⟨layout, hl, ?_⟩
    rw [← h]
    simp [SourceFile.statements, Method.statements, onCreate]

/-- Each statement of a generated file sets the layout up, or is there for one view, hook or clicked
id of the binding. -/
theorem statement_cases {b : ComponentBinding} {f : SourceFile} (h : b.sourceFile config = .ok f)
    {s : Statement} (hs : s ∈ f.statements) :
    s = .expr (.call (some .super) onCreateName [.ident savedStateName]) ∨
    (∃ layout, b.layout = some layout ∧ s = .expr (.call none "setContentView" [.int layout])) ∨
    (∃ v ∈ b.views, s = viewLookup config v) ∨
    (∃ hook ∈ b.hooks, s = hookCall hook) ∨
    ∃ c ∈ b.clicks, ∃ id ∈ c.ids, s = clickListener config c id := by
  obtain ⟨layout, hl, hf⟩ := statements_of_sourceFile config h
  rw [hf] at hs
  simp only [List.mem_append, List.mem_cons, List.not_mem_nil, or_false, List.mem_map,
    List.mem_flatMap, clickListeners] at hs
  obtain (((rfl | rfl) | ⟨v, hv, rfl⟩) | ⟨hook, hhook, rfl⟩) | ⟨c, hc, id, hid, rfl⟩ := hs
  · exact .inl rfl
  · exact .inr (.inl ⟨layout, hl, rfl⟩)
  · exact .inr (.inr (.inl ⟨v, hv, rfl⟩))
  · exact .inr (.inr (.inr (.inl ⟨hook, hhook, rfl⟩)))
  · exact .inr (.inr (.inr (.inr ⟨c, hc, id, hid, rfl⟩)))

theorem viewLookup_cases (v : ViewBinding) :
    let type := ClassRef.ofType v.type
    viewLookup config v = .assign v.member (.cast type (findView v.id)) ∨
      viewLookup config v = .declare type v.member (.cast type (findView v.id)) := by
  unfold viewLookup
  cases config.viewStyle with
  | assignField => exact .inl rfl
  | declareLocal => exact .inr rfl

theorem clickListener_mem {b : ComponentBinding} {f : SourceFile} (h : b.sourceFile config = .ok f)
    {c : ClickBinding} (hc : c ∈ b.clicks) {id : Int} (hid : id ∈ c.ids) :
    clickListener config c id ∈ f.statements := by
  obtain ⟨layout, -, hs⟩ := statements_of_sourceFile config h
  rw [hs]
  apply List.mem_append_right
  exact List.mem_flatMap.mpr ⟨c, hc, List.mem_map.mpr ⟨id, hid, rfl⟩⟩

end ComponentBinding

end ViewWiring
