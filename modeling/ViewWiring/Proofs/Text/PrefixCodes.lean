import Mathlib.Data.List.Basic

namespace ViewWiring

theorem intercalate_cons {α : Type} (sep x : List α) (xs : List (List α)) :
    sep.intercalate (x :: xs) = x ++ xs.flatMap fun y => sep ++ y := by
  induction xs generalizing x with
  | nil => simp
  | cons y ys ih =>
    rw [List.intercalate_cons_cons, ih, List.flatMap_cons, List.append_assoc, List.append_assoc]

theorem intercalate_singleton_cons {α : Type} (sep : α) (x : List α) (xs : List (List α)) :
    [sep].intercalate (x :: xs) = x ++ xs.flatMap fun y => sep :: y :=
  intercalate_cons [sep] x xs

theorem forall_mem_intercalate {α : Type} {p : α → Prop} (sep : α) {xs : List (List α)}
    (hsep : p sep) (hxs : ∀ x ∈ xs, ∀ c ∈ x, p c) : ∀ c ∈ [sep].intercalate xs, p c := by
  cases xs with
  | nil => simp
  | cons x xs =>
    obtain ⟨hx, hxs⟩ := List.forall_mem_cons.mp hxs
    rw [intercalate_singleton_cons, List.forall_mem_append]
    refine ⟨hx, ?_⟩
    intro c hc
    obtain ⟨y, hy, hcy⟩ := List.mem_flatMap.mp hc
    rcases List.mem_cons.mp hcy with rfl | hcy
    · exact hsep
    · exact hxs y hy c hcy

/-- Texts that show where they end: none is the beginning of another. -/
def IsPrefixCode {α : Type} (f : α → List Char) : Prop :=
  ∀ ⦃a b⦄, f a <+: f b → a = b

namespace IsPrefixCode

variable {α β : Type} {f : α → List Char} {g : β → List Char}

/-- Whatever follows, the value can be read off and what follows is left. -/
theorem append_inj (hf : IsPrefixCode f) {a b : α} {x y : List Char} (h : f a ++ x = f b ++ y) :
    a = b ∧ x = y := by
  have ha : f a <+: f b ++ y := ⟨x, h⟩
  have hb : f b <+: f b ++ y := List.prefix_append _ _
  obtain rfl : a = b := by
    rcases List.prefix_or_prefix_of_prefix ha hb with hab | hba
    · exact hf hab
    · exact (hf hba).symm
  exact ⟨rfl, List.append_cancel_left h⟩

theorem of_append_inj (h : ∀ a b x y, f a ++ x = f b ++ y → a = b ∧ x = y) : IsPrefixCode f := by
  rintro a b ⟨x, hx⟩
  rw [← List.append_nil (f b)] at hx
  exact (h a b x [] hx).1

theorem injective (hf : IsPrefixCode f) : Function.Injective f :=
  fun _ _ h => hf (h ▸ List.prefix_refl _)

theorem comp (hf : IsPrefixCode f) {read : β → α} (hr : Function.Injective read) :
    IsPrefixCode fun b => f (read b) :=
  fun _ _ h => hr (hf h)

theorem behind (hf : IsPrefixCode f) (start : List Char) : IsPrefixCode fun a => start ++ f a :=
  fun _ _ h => hf ((List.prefix_append_right_inj start).mp h)

theorem pair (hf : IsPrefixCode f) (hg : IsPrefixCode g) :
    IsPrefixCode fun p : α × β => f p.1 ++ g p.2 := by
  apply of_append_inj
  rintro ⟨a, b⟩ ⟨a', b'⟩ x y h
  rw [List.append_assoc, List.append_assoc] at h
  obtain ⟨rfl, hrest⟩ := hf.append_inj h
  obtain ⟨rfl, hxy⟩ := hg.append_inj hrest
  exact ⟨rfl, hxy⟩

/-- A list ends at a character that none of its entries begins with. -/
theorem closed (hf : IsPrefixCode f) {stop : Char} (hstop : ∀ a x y, f a ++ x ≠ stop :: y) :
    IsPrefixCode fun as : List α => as.flatMap f ++ [stop] := by
  apply of_append_inj
  intro as
  induction as with
  | nil =>
    intro bs x y h
    change stop :: x = _ at h
    cases bs with
    | nil => exact ⟨rfl, List.tail_eq_of_cons_eq h⟩
    | cons b bs =>
      rw [List.flatMap_cons, List.append_assoc, List.append_assoc] at h
      exact absurd h.symm (hstop b _ x)
  | cons a as ih =>
    intro bs x y h
    rw [List.flatMap_cons, List.append_assoc, List.append_assoc] at h
    cases bs with
    | nil => exact absurd h (hstop a _ y)
    | cons b bs =>
      rw [List.flatMap_cons, List.append_assoc, List.append_assoc] at h
      obtain ⟨rfl, hrest⟩ := hf.append_inj h
      rw [← List.append_assoc, ← List.append_assoc] at hrest
      obtain ⟨rfl, hxy⟩ := ih _ _ _ hrest
      exact ⟨rfl, hxy⟩

/-- Entries set apart by one character and ended by another. -/
theorem separated (hf : IsPrefixCode f) (sep : Char) {stop : Char} (hne : sep ≠ stop)
    (hstop : ∀ a x y, f a ++ x ≠ stop :: y) :
    IsPrefixCode fun as : List α => [sep].intercalate (as.map f) ++ [stop] := by
  have hmore : IsPrefixCode fun as : List α => as.flatMap (fun a => sep :: f a) ++ [stop] := by
    apply (hf.behind [sep]).closed
    intro a x y h
    exact hne (List.head_eq_of_cons_eq h)
  apply of_append_inj
  intro as bs x y h
  cases as with
  | nil =>
    change stop :: x = _ at h
    cases bs with
    | nil => exact ⟨rfl, List.tail_eq_of_cons_eq h⟩
    | cons b bs =>
      rw [List.map_cons, intercalate_singleton_cons, List.append_assoc, List.append_assoc] at h
      exact absurd h.symm (hstop b _ x)
  | cons a as =>
    rw [List.map_cons, intercalate_singleton_cons, List.append_assoc, List.append_assoc] at h
    cases bs with
    | nil => exact absurd h (hstop a _ y)
    | cons b bs =>
      rw [List.map_cons, intercalate_singleton_cons, List.append_assoc, List.append_assoc] at h
      obtain ⟨rfl, hrest⟩ := hf.append_inj h
      rw [List.flatMap_map, List.flatMap_map, ← List.append_assoc, ← List.append_assoc] at hrest
      obtain ⟨rfl, hxy⟩ := hmore.append_inj hrest
      exact ⟨rfl, hxy⟩

end IsPrefixCode

end ViewWiring
