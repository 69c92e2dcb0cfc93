import ViewWiring.Files.Path
import Mathlib.Data.List.Basic

namespace ViewWiring.Path

/-- The names that a path spells, whether or not a slash ends it. -/
def names (path : String) : List String :=
  ((path.toList.splitOn '/').map String.ofList).filter fun name => !name.isEmpty

/-- Where a path leads from the top, given by the names on the direct way. -/
def destination (path : String) : List String := (names path).foldl step []

theorem segments_eq_names {path : String} (h : path.toList.getLast? ≠ some '/') :
    segments path = names path := by
  rw [segments, if_neg h, List.append_nil, names]

theorem names_empty : names "" = [] := by decide +kernel

theorem names_append_slash (before after : List Char) :
    names (String.ofList (before ++ '/' :: after)) =
      names (String.ofList before) ++ names (String.ofList after) := by
  simp [names, List.splitOn_append_cons_self]

/-- A name that leads one step down. -/
structure IsPlain (name : String) : Prop where
  ne_empty : name ≠ ""
  slash_notMem : '/' ∉ name.toList
  ne_dot : name ≠ "."
  ne_dots : name ≠ ".."

theorem IsPlain.names_eq {name : String} (h : IsPlain name) : names name = [name] := by
  simp [names, List.splitOn_eq_singleton h.slash_notMem, h.ne_empty]

theorem IsPlain.head?_ne {name : String} (h : IsPlain name) : name.toList.head? ≠ some '/' :=
  fun hh => h.slash_notMem (List.mem_of_head? hh)

section Join

variable {base part : String}

/-- A relative part is put behind the base, where a slash parts the two. -/
theorem join_cases (base : String) {part : String} (hp : part.toList.head? ≠ some '/') :
    (base = "" ∧ join base part = part) ∨
    (∃ before, base.toList = before ++ ['/'] ∧ join base part = base ++ part) ∨
    (base ≠ "" ∧ join base part = base ++ "/" ++ part) := by
  unfold join
  rw [if_neg hp]
  by_cases he : base = ""
  · exact .inl ⟨he, by simp [he]⟩
  by_cases hl : base.toList.getLast? = some '/'
  · exact .inr (.inl ⟨_, List.getLast?_eq_some_iff.mp hl |>.choose_spec, by simp [hl]⟩)
  · exact .inr (.inr ⟨he, by simp [he, hl]⟩)

theorem names_join (hp : part.toList.head? ≠ some '/') :
    names (join base part) = names base ++ names part := by
  obtain ⟨rfl, hj⟩ | ⟨before, hbase, hj⟩ | ⟨-, hj⟩ := join_cases base hp
  · rw [hj, names_empty, List.nil_append]
  · have hbase' : base = String.ofList (before ++ '/' :: []) := by
      rw [← hbase, String.ofList_toList]
    have happ : base ++ part = String.ofList (before ++ '/' :: part.toList) := by
      rw [← String.toList_inj, String.toList_append, hbase, String.toList_ofList, List.append_assoc]
      rfl
    rw [hj, happ, hbase', names_append_slash, names_append_slash, String.ofList_toList]
    simp [names_empty]
  · have happ : base ++ "/" ++ part = String.ofList (base.toList ++ '/' :: part.toList) := by
      rw [← String.toList_inj]
      simp
    rw [hj, happ, names_append_slash, String.ofList_toList, String.ofList_toList]

theorem getLast?_join (hp : part.toList.head? ≠ some '/') (hne : part ≠ "") :
    (join base part).toList.getLast? = part.toList.getLast? := by
  have hnil : part.toList ≠ [] := by simpa using hne
  obtain ⟨-, hj⟩ | ⟨_, -, hj⟩ | ⟨-, hj⟩ := join_cases base hp
  · rw [hj]
  · rw [hj, String.toList_append, List.getLast?_append_of_ne_nil _ hnil]
  · rw [hj, String.toList_append, List.getLast?_append_of_ne_nil _ hnil]

theorem head?_join (hb : base.toList.head? ≠ some '/') (hp : part.toList.head? ≠ some '/') :
    (join base part).toList.head? ≠ some '/' := by
  have hfront : ∀ more : String, base ≠ "" → (base ++ more).toList.head? ≠ some '/' := by
    intro more hne
    obtain ⟨c, cs, hbase⟩ := List.exists_cons_of_ne_nil (l := base.toList) (by simpa using hne)
    rw [String.toList_append, hbase]
    rw [hbase] at hb
    exact hb
  obtain ⟨-, hj⟩ | ⟨before, hbase, hj⟩ | ⟨hne, hj⟩ := join_cases base hp
  · rw [hj]
    exact hp
  · rw [hj]
    apply hfront
    rintro rfl
    simp at hbase
  · rw [hj, String.append_assoc]
    exact hfront _ hne

/-- Plain names are appended one by one to what the base spells. -/
theorem names_foldl_join {parts : List String} (h : ∀ part ∈ parts, IsPlain part) :
    names (parts.foldl join base) = names base ++ parts := by
  induction parts generalizing base with
  | nil => simp
  | cons part parts ih =>
    obtain ⟨hpart, hparts⟩ := List.forall_mem_cons.mp h
    rw [List.foldl_cons, ih hparts, names_join hpart.head?_ne, hpart.names_eq, List.append_assoc,
      List.singleton_append]

theorem head?_foldl_join {parts : List String} (hb : base.toList.head? ≠ some '/')
    (h : ∀ part ∈ parts, IsPlain part) : (parts.foldl join base).toList.head? ≠ some '/' := by
  induction parts generalizing base with
  | nil => exact hb
  | cons part parts ih =>
    obtain ⟨hpart, hparts⟩ := List.forall_mem_cons.mp h
    exact ih (head?_join hb hpart.head?_ne) hparts

end Join

section Visits

variable {here : List String}

theorem visits_append (xs ys : List String) :
    visits here (xs ++ ys) = visits here xs ++ visits (xs.foldl step here) ys := by
  induction xs generalizing here with
  | nil => rfl
  | cons x xs ih => simp [visits, ih]

theorem getLast?_visits (xs : List String) :
    (visits here xs).getLast? = if xs = [] then none else some (xs.foldl step here) := by
  induction xs generalizing here with
  | nil => rfl
  | cons x xs ih =>
    rw [visits, List.getLast?_cons, ih, if_neg (List.cons_ne_nil _ _), List.foldl_cons]
    by_cases hx : xs = []
    · simp [hx]
    · simp [hx]

theorem foldl_step_filter (xs : List String) :
    (xs.filter (· != ".")).foldl step here = xs.foldl step here := by
  induction xs generalizing here with
  | nil => rfl
  | cons x xs ih =>
    by_cases hx : x = "."
    · rw [List.filter_cons_of_neg (by simp [hx]), ih, List.foldl_cons, step, if_pos hx]
    · rw [List.filter_cons_of_pos (by simp [hx]), List.foldl_cons, List.foldl_cons, ih]

theorem visits_filter_subset (xs : List String) :
    visits here (xs.filter (· != ".")) ⊆ visits here xs := by
  induction xs generalizing here with
  | nil => exact List.Subset.refl _
  | cons x xs ih =>
    by_cases hx : x = "."
    · rw [List.filter_cons_of_neg (by simp [hx]), visits, step, if_pos hx]
      exact List.subset_cons_of_subset _ ih
    · rw [List.filter_cons_of_pos (by simp [hx]), visits, visits]
      exact List.cons_subset_cons _ ih

/-- Dots lead to where one is. -/
theorem mem_visits_filter {here place : List String} {names : List String}
    (h : place ∈ visits here names) :
    place = here ∨ place ∈ visits here (names.filter (· != ".")) := by
  induction names generalizing here with
  | nil => cases h
  | cons name names ih =>
    rw [visits, List.mem_cons] at h
    by_cases hdot : name = "."
    · rw [List.filter_cons_of_neg (by simp [hdot])]
      rw [step, if_pos hdot] at h
      rcases h with rfl | h
      · exact .inl rfl
      · exact ih h
    · rw [List.filter_cons_of_pos (by simp [hdot]), visits, List.mem_cons]
      rcases h with rfl | h
      · exact .inr (.inl rfl)
      · exact .inr (ih h)

theorem IsPlain.step_eq {name : String} (h : IsPlain name) : step here name = here ++ [name] := by
  rw [step, if_neg h.ne_dot, if_neg h.ne_dots]

theorem foldl_step_of_isPlain {xs : List String} (h : ∀ x ∈ xs, IsPlain x) :
    xs.foldl step here = here ++ xs := by
  induction xs generalizing here with
  | nil => simp
  | cons x xs ih =>
    obtain ⟨hx, hxs⟩ := List.forall_mem_cons.mp h
    rw [List.foldl_cons, ih hxs, hx.step_eq, List.append_assoc, List.singleton_append]

/-- Plain names are passed from the first to the last. -/
theorem mem_visits_of_isPlain {xs : List String} (h : ∀ x ∈ xs, IsPlain x) {place : List String} :
    place ∈ visits here xs ↔ ∃ way, way ≠ [] ∧ way <+: xs ∧ place = here ++ way := by
  induction xs generalizing here with
  | nil => simp [visits]
  | cons x xs ih =>
    obtain ⟨hx, hxs⟩ := List.forall_mem_cons.mp h
    rw [visits, List.mem_cons, ih hxs, hx.step_eq]
    constructor
    · rintro (rfl | ⟨way, -, hway, rfl⟩)
      · exact ⟨[x], by simp, by simp, rfl⟩
      · exact ⟨x :: way, by simp, by simpa using hway, by simp⟩
    · rintro ⟨way, hne, hway, rfl⟩
      cases way with
      | nil => exact absurd rfl hne
      | cons y way =>
        obtain ⟨rfl, htail⟩ := List.cons_prefix_cons.mp hway
        by_cases hnil : way = []
        · exact .inl (by simp [hnil])
        · exact .inr ⟨way, hnil, htail, by simp⟩

end Visits

/-- A path that asks for anything ends where its names lead. -/
theorem getLast?_places {path : String} (h : places path ≠ []) :
    (places path).getLast? = some (destination path) := by
  by_cases hl : path.toList.getLast? = some '/'
  · have hseg : segments path = names path ++ ["."] := by rw [segments, if_pos hl, names]
    rw [places, hseg, getLast?_visits, if_neg (by simp), List.foldl_append, destination]
    rfl
  · rw [places, segments_eq_names hl] at h ⊢
    rw [getLast?_visits, destination, if_neg]
    intro hnil
    rw [hnil] at h
    exact h rfl

theorem mem_places {path : String} (h : places path ≠ []) {place : List String} :
    place ∈ places path ↔ place ∈ visits [] (names path) ∨ place = destination path := by
  constructor
  · intro hp
    by_cases hl : path.toList.getLast? = some '/'
    · rw [places, segments, if_pos hl, visits_append] at hp
      exact (List.mem_append.mp hp).imp_right List.mem_singleton.mp
    · rw [places, segments_eq_names hl] at hp
      exact .inl hp
  · rintro (hp | rfl)
    · change place ∈ visits [] (names path ++ _)
      rw [visits_append]
      exact List.mem_append_left _ hp
    · exact List.mem_of_getLast? (getLast?_places h)

/-- The places on the way of a path that goes on from `base` with plain names. -/
theorem places_eq {path base : String} {down : List String} (hn : names path = names base ++ down)
    (hl : path.toList.getLast? ≠ some '/') :
    places path = visits [] (names base) ++ visits (destination base) down := by
  rw [places, segments_eq_names hl, hn, visits_append, destination]

theorem folderPlaces_eq {path base : String} {folders : List String} {name : String}
    (hn : names path = names base ++ (folders ++ [name])) (hl : path.toList.getLast? ≠ some '/')
    (hf : ∀ folder ∈ folders, IsPlain folder) :
    folderPlaces path =
      visits [] ((names base).filter (· != ".")) ++ visits (destination base) folders := by
  have hkeep : folders.filter (· != ".") = folders := by
    apply List.filter_eq_self.mpr
    intro folder hfolder
    simpa using (hf folder hfolder).ne_dot
  rw [folderPlaces, segments_eq_names hl, hn, ← List.append_assoc, List.dropLast_concat,
    List.filter_append, hkeep, visits_append, foldl_step_filter, destination]

end ViewWiring.Path
