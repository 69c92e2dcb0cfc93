import ViewWiring.Proofs.Files.Standing

namespace ViewWiring.Entry

open ViewWiring.Path (step visits)

/-- Directories stay directories from one tree to the other, and files stay files, whatever they
hold. -/
structure Grows (top top' : Entry) : Prop where
  directory : ∀ {place}, top.standing? place = some .directory →
    top'.standing? place = some .directory
  file : ∀ {place content}, top.standing? place = some (.file content) →
    ∃ content', top'.standing? place = some (.file content')

namespace Grows

variable {top top' top'' : Entry}

theorem refl (top : Entry) : top.Grows top := ⟨id, fun h => ⟨_, h⟩⟩

theorem trans (h : top.Grows top') (h' : top'.Grows top'') : top.Grows top'' := by
  refine ⟨fun hd => h'.directory (h.directory hd), ?_⟩
  intro place content hf
  obtain ⟨content', hf'⟩ := h.file hf
  exact h'.file hf'

theorem passes (h : top.Grows top') {place : List String} (hp : top.Passes place) :
    top'.Passes place :=
  ⟨hp.1, h.directory hp.2⟩

end Grows

/-- From one tree to the other nothing changes but that directories come where nothing stood. -/
def AddsDirectories (top top' : Entry) : Prop :=
  ∀ place, top'.standing? place = top.standing? place ∨
    top.standing? place = none ∧ top'.standing? place = some .directory

namespace AddsDirectories

variable {top top' top'' : Entry}

theorem refl (top : Entry) : top.AddsDirectories top := fun _ => .inl rfl

theorem trans (h : top.AddsDirectories top') (h' : top'.AddsDirectories top'') :
    top.AddsDirectories top'' := by
  intro place
  rcases h place with hs | ⟨hnone, hs⟩ <;> rcases h' place with hs' | ⟨hnone', hs'⟩
  · exact .inl (hs'.trans hs)
  · exact .inr ⟨hs ▸ hnone', hs'⟩
  · exact .inr ⟨hnone, hs'.trans hs⟩
  · exact .inr ⟨hnone, hs'⟩

theorem standing?_eq (h : top.AddsDirectories top') {place : List String}
    (hp : top.standing? place ≠ none) : top'.standing? place = top.standing? place :=
  (h place).resolve_right fun hnone => hp hnone.1

theorem grows (h : top.AddsDirectories top') : top.Grows top' := by
  constructor
  · intro place hd
    rw [h.standing?_eq (by simp [hd]), hd]
  · intro place content hf
    exact ⟨content, by rw [h.standing?_eq (by simp [hf]), hf]⟩

end AddsDirectories

/-- As many directories as can be stand on a way through the given places: all of them, or those
before a name that is too long or a file. -/
inductive Cleared (top : Entry) : List (List String) → Except FileError Unit → Prop
  | done : Cleared top [] (.ok ())
  | pass {place : List String} {rest : List (List String)} {answer : Except FileError Unit}
      (hp : top.Passes place) (h : Cleared top rest answer) : Cleared top (place :: rest) answer
  | tooLong {place : List String} {rest : List (List String)} (hlong : isTooLong place = true) :
      Cleared top (place :: rest) (.error .nameTooLong)
  | file {place : List String} {rest : List (List String)} {content : ByteArray}
      (hshort : isTooLong place = false) (hf : top.standing? place = some (.file content)) :
      Cleared top (place :: rest) (.error (if rest.isEmpty then .alreadyExists else .notDirectory))

namespace Cleared

variable {top top' : Entry} {places : List (List String)} {answer : Except FileError Unit}

theorem mono (h : top.Cleared places answer) (hg : top.Grows top') :
    top'.Cleared places answer := by
  induction h with
  | done => exact .done
  | pass hp _ ih => exact .pass (hg.passes hp) ih
  | tooLong hlong => exact .tooLong hlong
  | file hshort hf =>
    obtain ⟨content', hf'⟩ := hg.file hf
    exact .file hshort hf'

theorem answer_eq_ok_iff (h : top.Cleared places answer) :
    answer = .ok () ↔ ∀ place ∈ places, top.Passes place := by
  induction h with
  | done => simp
  | pass hp _ ih => rw [ih, List.forall_mem_cons, and_iff_right hp]
  | tooLong hlong => simp [Passes, hlong]
  | file hshort hf => simp [Passes, hf]

theorem of_passes (h : ∀ place ∈ places, top.Passes place) : top.Cleared places (.ok ()) := by
  induction places with
  | nil => exact .done
  | cons place places ih =>
    obtain ⟨hp, hps⟩ := List.forall_mem_cons.mp h
    exact .pass hp (ih hps)

/-- Nothing more is made on a way that is cleared. -/
theorem makeDirectories_eq (h : top.Cleared places answer) :
    top.makeDirectories places = (answer, top) := by
  induction h with
  | done => rfl
  | pass hp _ ih =>
    obtain ⟨es, hes⟩ := exists_directory_of_standing? hp.2
    rw [makeDirectories, hp.1, if_neg Bool.false_ne_true, hes]
    exact ih
  | tooLong hlong => rw [makeDirectories, if_pos hlong]
  | file hshort hf =>
    rw [makeDirectories, hshort, if_neg Bool.false_ne_true, standing?_eq_file_iff.mp hf]

theorem unique {answer' : Except FileError Unit} (h : top.Cleared places answer)
    (h' : top.Cleared places answer') : answer = answer' := by
  have hmake := h.makeDirectories_eq
  rw [h'.makeDirectories_eq] at hmake
  exact (congrArg Prod.fst hmake).symm

end Cleared

/-- Dots lead to directories that stand. -/
theorem step_eq_concat {top : Entry} {here : List String} {name : String}
    (hhere : top.standing? here = some .directory)
    (hnone : top.standing? (step here name) = none) : step here name = here ++ [name] := by
  unfold step at hnone ⊢
  split_ifs at hnone ⊢ with hdot hdots
  · rw [hhere] at hnone
    cases hnone
  · obtain rfl | ⟨before, last, rfl⟩ := here.eq_nil_or_concat'
    · exact absurd hnone (by simp [hhere])
    · rw [List.dropLast_concat, standing?_of_below (List.cons_ne_nil _ _) hhere] at hnone
      cases hnone
  · rfl

theorem put_directory_adds {top : Entry} {here : List String} {name : String}
    (hhere : top.standing? here = some .directory)
    (hnone : top.standing? (step here name) = none) :
    top.AddsDirectories (top.put (step here name) (directory [])) ∧
      (top.put (step here name) (directory [])).standing? (step here name) = some .directory := by
  have hplace := step_eq_concat hhere hnone
  have hfree : top.standing? (here ++ [name]) ≠ some .directory := by simp [← hplace, hnone]
  have hmade : ∀ place, (top.put (here ++ [name]) (directory [])).standing? place =
      if place = here ++ [name] then some .directory else top.standing? place :=
    standing?_put hhere hfree fun _ _ => rfl
  rw [← hplace] at hmade
  refine ⟨?_, by rw [hmade, if_pos rfl]⟩
  intro place
  rw [hmade]
  split_ifs with hp
  · exact .inr ⟨hp ▸ hnone, rfl⟩
  · exact .inl rfl

/-- Making directories along a way clears it, and does nothing else. -/
theorem makeDirectories_cleared {top : Entry} {here : List String}
    (hhere : top.standing? here = some .directory) (names : List String) :
    ∃ answer top', top.makeDirectories (visits here names) = (answer, top') ∧
      top'.Cleared (visits here names) answer ∧ top.AddsDirectories top' := by
  induction names generalizing top here with
  | nil => exact ⟨.ok (), top, rfl, .done, .refl top⟩
  | cons name names ih =>
    rw [visits, makeDirectories]
    cases hlong : isTooLong (step here name) with
    | true => exact ⟨_, top, rfl, .tooLong hlong, .refl top⟩
    | false =>
      rw [if_neg Bool.false_ne_true]
      have hthere : top.standing? (step here name) = (top.find? (step here name)).map standing := rfl
      cases hfind : top.find? (step here name) with
      | some e =>
        rw [hfind] at hthere
        cases e with
        | file content => exact ⟨_, top, rfl, .file hlong hthere, .refl top⟩
        | directory es =>
          obtain ⟨answer, top', hmake, hcleared, hadds⟩ := ih hthere
          exact ⟨answer, top', hmake, .pass (hadds.grows.passes ⟨hlong, hthere⟩) hcleared, hadds⟩
      | none =>
        rw [hfind] at hthere
        obtain ⟨hadds, hmade⟩ := put_directory_adds hhere hthere
        obtain ⟨answer, top', hmake, hcleared, hadds'⟩ := ih hmade
        exact ⟨answer, top', hmake, .pass (hadds'.grows.passes ⟨hlong, hmade⟩) hcleared,
          hadds.trans hadds'⟩

/-- A file stands at a place, or something keeps one from being written there. -/
inductive Filed (top : Entry) (place : List String) : Except FileError Unit → Prop
  | tooLong (hlong : isTooLong place = true) : Filed top place (.error .nameTooLong)
  | directory (hshort : isTooLong place = false) (hd : top.standing? place = some .directory) :
      Filed top place (.error .isDirectory)
  | file {content : ByteArray} (hshort : isTooLong place = false)
      (hf : top.standing? place = some (.file content)) : Filed top place (.ok ())

namespace Filed

variable {top top' : Entry} {place : List String} {answer answer' : Except FileError Unit}

theorem mono (h : top.Filed place answer) (hg : top.Grows top') : top'.Filed place answer := by
  cases h with
  | tooLong hlong => exact .tooLong hlong
  | directory hshort hd => exact .directory hshort (hg.directory hd)
  | file hshort hf =>
    obtain ⟨content', hf'⟩ := hg.file hf
    exact .file hshort hf'

theorem unique (h : top.Filed place answer) (h' : top.Filed place answer') : answer = answer' := by
  cases h <;> cases h' <;> simp_all

end Filed

/-- Writing a file puts its content in its place and does nothing else, unless something keeps the
file from being written. -/
theorem write_filed {top : Entry} {here : List String}
    (hhere : top.standing? here = some .directory) (name : String) (content : ByteArray) :
    ∃ answer top', top.write (here ++ [name]) content = (answer, top') ∧
      top'.Filed (here ++ [name]) answer ∧ top.Grows top' ∧
      ∀ place, top'.standing? place =
        if answer = .ok () ∧ place = here ++ [name] then some (.file content)
        else top.standing? place := by
  by_cases hfit : name.utf8ByteSize ≤ 255
  · by_cases hfree : top.standing? (here ++ [name]) = some .directory
    · obtain ⟨es, hes⟩ := exists_directory_of_standing? hfree
      refine ⟨.error .isDirectory, top, ?_, .directory (isTooLong_concat.mpr hfit) hfree,
        .refl top, by simp⟩
      rw [write, isTooLong_concat.mpr hfit, if_neg Bool.false_ne_true, hes]
    · obtain ⟨top', hwrite, hstands⟩ := write_concat content hfit hhere hfree
      have hfile : top'.standing? (here ++ [name]) = some (.file content) := by
        rw [hstands, if_pos rfl]
      refine ⟨.ok (), top', hwrite, .file (isTooLong_concat.mpr hfit) hfile, ⟨?_, ?_⟩,
        by simpa using hstands⟩
      · intro place hd
        have hne : place ≠ here ++ [name] := fun he => hfree (he ▸ hd)
        rw [hstands, if_neg hne, hd]
      · intro place old hf
        rw [hstands]
        split_ifs
        · exact ⟨content, rfl⟩
        · exact ⟨old, hf⟩
  · have hlong : isTooLong (here ++ [name]) = true := by
      rw [← Bool.not_eq_false, isTooLong_concat]
      exact hfit
    refine ⟨.error .nameTooLong, top, ?_, .tooLong hlong, .refl top, by simp⟩
    rw [write, if_pos hlong]

end ViewWiring.Entry
