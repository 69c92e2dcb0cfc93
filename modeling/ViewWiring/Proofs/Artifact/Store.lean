import ViewWiring.Artifact.Store
import Mathlib.Data.List.Nodup
import Mathlib.Data.String.Basic

namespace ViewWiring.Store

def names (s : Store) : List String := s.artifacts.map Artifact.qualifiedName

/-- The artifacts stand in strictly increasing order of their names, so no name comes twice. -/
def Ordered (s : Store) : Prop := s.names.Pairwise (· < ·)

def insertAll (s : Store) (as : List Artifact) : Store := as.foldl insert s

theorem ordered_empty : empty.Ordered := .nil

theorem Ordered.nodup {s : Store} (h : s.Ordered) : s.names.Nodup := h.imp ne_of_lt

theorem mem_insertInto {a : Artifact} {as : List Artifact} {name : String} :
    name ∈ (insertInto a as).map Artifact.qualifiedName ↔
      name = a.qualifiedName ∨ name ∈ as.map Artifact.qualifiedName := by
  induction as with
  | nil => simp [insertInto]
  | cons b bs ih =>
    rw [insertInto]
    split_ifs with hlt heq
    · simp
    · simp [heq]
    · rw [List.map_cons, List.mem_cons, ih, List.map_cons, List.mem_cons]
      exact or_left_comm

theorem Ordered.insert {s : Store} (h : s.Ordered) (a : Artifact) : (s.insert a).Ordered := by
  obtain ⟨as⟩ := s
  change ((insertInto a as).map Artifact.qualifiedName).Pairwise (· < ·)
  change (as.map Artifact.qualifiedName).Pairwise (· < ·) at h
  induction as with
  | nil => simp [insertInto]
  | cons b bs ih =>
    obtain ⟨hb, hbs⟩ := List.pairwise_cons.mp h
    rw [insertInto]
    split_ifs with hlt heq
    · refine List.pairwise_cons.mpr ⟨?_, h⟩
      intro name hn
      rcases List.mem_cons.mp hn with rfl | hn
      · exact hlt
      · exact hlt.trans (hb name hn)
    · refine List.pairwise_cons.mpr ⟨?_, hbs⟩
      rw [heq]
      exact hb
    · refine List.pairwise_cons.mpr ⟨?_, ih hbs⟩
      intro name hn
      rcases mem_insertInto.mp hn with rfl | hn
      · exact lt_of_le_of_ne (not_lt.mp hlt) (Ne.symm heq)
      · exact hb name hn

theorem Ordered.insertAll {s : Store} (h : s.Ordered) (as : List Artifact) :
    (s.insertAll as).Ordered := by
  induction as generalizing s with
  | nil => exact h
  | cons a as ih => exact ih (h.insert a)

/-- The last artifact put in under a name is the one found there. -/
theorem get?_insert (s : Store) (a : Artifact) (name : String) :
    (s.insert a).get? name = if a.qualifiedName = name then some a else s.get? name := by
  obtain ⟨as⟩ := s
  change (insertInto a as).find? _ = if _ then _ else as.find? _
  induction as with
  | nil => by_cases hn : a.qualifiedName = name <;> simp [insertInto, hn]
  | cons b bs ih =>
    rw [insertInto]
    by_cases hn : a.qualifiedName = name
    · rw [if_pos hn] at ih ⊢
      split_ifs with hlt heq
      · simp [hn]
      · simp [hn]
      · have hb : b.qualifiedName ≠ name := fun hb => heq (hn.trans hb.symm)
        rw [List.find?_cons_of_neg (by simpa using hb), ih]
    · rw [if_neg hn] at ih ⊢
      split_ifs with hlt heq
      · rw [List.find?_cons_of_neg (by simpa using hn)]
      · have hb : b.qualifiedName ≠ name := heq ▸ hn
        rw [List.find?_cons_of_neg (by simpa using hn), List.find?_cons_of_neg (by simpa using hb)]
      · rw [List.find?_cons, List.find?_cons, ih]

theorem get?_insertAll (s : Store) (as : List Artifact) (name : String) :
    (s.insertAll as).get? name =
      (as.reverse.find? fun a => a.qualifiedName == name).or (s.get? name) := by
  induction as generalizing s with
  | nil => rfl
  | cons a as ih =>
    rw [insertAll, List.foldl_cons]
    change ((s.insert a).insertAll as).get? name = _
    rw [ih, get?_insert, List.reverse_cons, List.find?_append, List.find?_singleton, Option.or_assoc]
    by_cases hn : a.qualifiedName = name <;> simp [hn]

theorem Ordered.mem_iff {s : Store} (h : s.Ordered) {a : Artifact} :
    a ∈ s.artifacts ↔ s.get? a.qualifiedName = some a := by
  constructor
  · intro ha
    obtain ⟨b, hb⟩ : ∃ b, s.get? a.qualifiedName = some b :=
      Option.isSome_iff_exists.mp (List.find?_isSome.mpr ⟨a, ha, by simp⟩)
    have hname : b.qualifiedName = a.qualifiedName := by simpa using List.find?_some hb
    rw [hb, List.inj_on_of_nodup_map h.nodup (List.mem_of_find?_eq_some hb) ha hname]
  · exact List.mem_of_find?_eq_some

theorem Ordered.mem_insert {s : Store} (h : s.Ordered) {a b : Artifact} :
    b ∈ (s.insert a).artifacts ↔
      b = a ∨ b ∈ s.artifacts ∧ b.qualifiedName ≠ a.qualifiedName := by
  rw [(h.insert a).mem_iff, get?_insert, h.mem_iff]
  by_cases hname : a.qualifiedName = b.qualifiedName
  · simp [hname, eq_comm]
  · have hne : b ≠ a := fun he => hname (he ▸ rfl)
    simp [hname, hne, Ne.symm hname]

theorem mem_of_mem_insertAll {as : List Artifact} {a : Artifact}
    (h : a ∈ (empty.insertAll as).artifacts) : a ∈ as := by
  rw [(ordered_empty.insertAll as).mem_iff, get?_insertAll] at h
  exact List.mem_reverse.mp (List.mem_of_find?_eq_some (by simpa [get?, empty] using h))

theorem mem_names_insertAll {s : Store} {as : List Artifact} {name : String} :
    name ∈ (s.insertAll as).names ↔ name ∈ s.names ∨ name ∈ as.map Artifact.qualifiedName := by
  induction as generalizing s with
  | nil => simp [insertAll]
  | cons a as ih =>
    have hinsert : name ∈ (s.insert a).names ↔ name = a.qualifiedName ∨ name ∈ s.names :=
      mem_insertInto
    change name ∈ ((s.insert a).insertAll as).names ↔ _
    rw [ih, hinsert, List.map_cons, List.mem_cons]
    tauto

theorem insertInto_perm {a : Artifact} {as : List Artifact}
    (h : a.qualifiedName ∉ as.map Artifact.qualifiedName) : (insertInto a as).Perm (a :: as) := by
  induction as with
  | nil => exact .refl _
  | cons b bs ih =>
    rw [List.map_cons, List.mem_cons, not_or] at h
    rw [insertInto, if_neg h.1]
    split_ifs
    · exact .refl _
    · exact ((ih h.2).cons b).trans (.swap a b bs)

/-- Where no name comes twice, nothing is replaced. -/
theorem insertAll_perm {s : Store} {as : List Artifact}
    (h : (s.names ++ as.map Artifact.qualifiedName).Nodup) :
    (s.insertAll as).artifacts.Perm (s.artifacts ++ as) := by
  induction as generalizing s with
  | nil => simp [insertAll]
  | cons a as ih =>
    have hs : (s.names ++ [a.qualifiedName]).Nodup ∧ a.qualifiedName ∉ s.names := by
      rw [List.map_cons, List.nodup_append] at h
      rw [List.nodup_append]
      have hn : a.qualifiedName ∉ s.names := fun hm => h.2.2 _ hm _ List.mem_cons_self rfl
      refine ⟨⟨h.1, List.nodup_singleton _, ?_⟩, hn⟩
      intro name hm name' hm' he
      exact hn (List.mem_singleton.mp hm' ▸ he ▸ hm)
    have hperm : (s.insert a).artifacts.Perm (s.artifacts ++ [a]) :=
      (insertInto_perm hs.2).trans (List.perm_append_singleton a s.artifacts).symm
    -- `s.insert a` lists the same names as `s` followed by `a`, in another order
    have hnames : ((s.insert a).names ++ as.map Artifact.qualifiedName).Nodup := by
      have hp := (hperm.map Artifact.qualifiedName).append_right (as.map Artifact.qualifiedName)
      rw [names, hp.nodup_iff]
      simpa [names] using h
    have hrest := (ih hnames).trans (hperm.append_right as)
    simpa [insertAll] using hrest

theorem run_mapM_writer (as : List Artifact) (s : Store) :
    (as.mapM writer).run s = (as.map fun _ => .ok (), s.insertAll as) := by
  induction as generalizing s with
  | nil => rfl
  | cons a as ih =>
    rw [List.mapM_cons]
    change ((.ok () :: ((as.mapM writer).run (s.insert a)).1),
      ((as.mapM writer).run (s.insert a)).2) = _
    rw [ih]
    rfl

end ViewWiring.Store
