import ViewWiring.Proofs.Artifact.Places
import ViewWiring.Proofs.Files.Standing

namespace ViewWiring.Output

open ViewWiring.Path (names destination visits)

theorem beq_content_iff {x y : ByteArray} : (x == y) = true ↔ x = y := by
  obtain ⟨xs⟩ := x
  obtain ⟨ys⟩ := y
  have h : (ByteArray.mk xs == ByteArray.mk ys) = (xs == ys) := rfl
  rw [h, beq_iff_eq, ByteArray.mk.injEq]

/-- A root that leads to a directory of a tree. -/
structure Opens (root : String) (top : Entry) : Prop where
  ne_nil : Path.places root ≠ []
  passes : ∀ place ∈ Path.places root, top.Passes place

variable {root : String} {top : Entry}

theorem follow_eq_directory_iff {es : List (String × Entry)} :
    top.follow (Path.places root) = .ok (.directory es) ↔
      Opens root top ∧ top.find? (destination root) = some (.directory es) := by
  by_cases hne : Path.places root = []
  · rw [hne]
    constructor
    · nofun
    · exact fun h => absurd hne h.1.ne_nil
  · have hlast := Path.getLast?_places hne
    rw [Entry.follow_eq_ok_iff hlast]
    constructor
    · rintro ⟨hfront, hlong, hfind⟩
      refine ⟨⟨hne, ?_⟩, hfind⟩
      intro place hplace
      obtain ⟨front, hplaces⟩ := List.getLast?_eq_some_iff.mp hlast
      rw [hplaces, List.dropLast_concat] at hfront
      rw [hplaces, List.mem_append, List.mem_singleton] at hplace
      rcases hplace with hplace | rfl
      · exact hfront place hplace
      · exact ⟨hlong, by rw [Entry.standing?, hfind]; rfl⟩
    · rintro ⟨hopens, hfind⟩
      refine ⟨fun p hp => hopens.passes p ((List.dropLast_sublist _).subset hp), ?_, hfind⟩
      exact (hopens.passes _ (List.mem_of_getLast? hlast)).1

theorem Opens.passes_way (h : Opens root top) {place : List String}
    (hp : place ∈ visits [] (names root)) : top.Passes place :=
  h.passes place ((Path.mem_places h.ne_nil).mpr (.inl hp))

/-- A root stays open while its directories stand. -/
theorem Opens.mono (h : Opens root top) {top' : Entry}
    (hstands : ∀ place, top.standing? place = some .directory →
      top'.standing? place = some .directory) : Opens root top' := by
  refine ⟨h.ne_nil, ?_⟩
  intro place hplace
  obtain ⟨hlong, hdirectory⟩ := h.passes place hplace
  exact ⟨hlong, hstands place hdirectory⟩

theorem Opens.passes_destination (h : Opens root top) : top.Passes (destination root) :=
  h.passes _ ((Path.mem_places h.ne_nil).mpr (.inr rfl))

/-- The place of an artifact's file. -/
def filePlace (root : String) (a : Artifact) : List String :=
  destination root ++ (a.folders ++ [a.fileName])

/-- The places of the folders that an artifact's file needs below the root. -/
def folderPlaces (root : String) (a : Artifact) : List (List String) :=
  visits (destination root) a.folders

variable {a : Artifact}

theorem mem_folderPlaces (ha : a.WellNamed) {place : List String} :
    place ∈ folderPlaces root a ↔
      ∃ way, way ≠ [] ∧ way <+: a.folders ∧ place = destination root ++ way :=
  Path.mem_visits_of_isPlain fun _ hf => ha.isPlain_of_mem_folders hf

theorem places_path (root : String) (ha : a.WellNamed) :
    Path.places (path root a) =
        visits [] (names root) ++ folderPlaces root a ++ [filePlace root a] ∧
      (Path.places (path root a)).getLast? = some (filePlace root a) := by
  obtain ⟨hnames, hslash⟩ := ha.path_spells root
  have hfolders : a.folders.foldl Path.step (destination root) = destination root ++ a.folders :=
    Path.foldl_step_of_isPlain fun _ hf => ha.isPlain_of_mem_folders hf
  have hplaces : Path.places (path root a) =
      visits [] (names root) ++ folderPlaces root a ++ [filePlace root a] := by
    rw [Path.places_eq hnames hslash, Path.visits_append, hfolders, visits, visits,
      ha.isPlain_fileName.step_eq, List.append_assoc, List.append_assoc, folderPlaces, filePlace]
  refine ⟨hplaces, ?_⟩
  rw [hplaces, List.getLast?_concat]

/-- The folders on the way of a path are those of the root, where dots ask for nothing, and those
below it. -/
theorem folderPlaces_path (root : String) (ha : a.WellNamed) :
    Path.folderPlaces (path root a) =
      visits [] ((names root).filter (· != ".")) ++ folderPlaces root a := by
  obtain ⟨hnames, hslash⟩ := ha.path_spells root
  exact Path.folderPlaces_eq hnames hslash fun _ hf => ha.isPlain_of_mem_folders hf

theorem folderPlaces_path_eq_visits (root : String) (ha : a.WellNamed) :
    Path.folderPlaces (path root a) = visits [] ((names root).filter (· != ".") ++ a.folders) := by
  rw [folderPlaces_path root ha, Path.visits_append, Path.foldl_step_filter]
  rfl

theorem makeDirectories_folderPlaces (ha : a.WellNamed) (hopens : Opens root top) :
    top.makeDirectories (Path.folderPlaces (path root a)) =
      top.makeDirectories (folderPlaces root a) := by
  rw [folderPlaces_path root ha]
  apply Entry.makeDirectories_append
  intro place hplace
  exact hopens.passes_way (Path.visits_filter_subset _ hplace)

/-- A file is no folder of its own. -/
theorem filePlace_notMem (ha : a.WellNamed) : filePlace root a ∉ folderPlaces root a := by
  intro h
  obtain ⟨way, -, hway, he⟩ := (mem_folderPlaces ha).mp h
  rw [filePlace, List.append_cancel_left_eq] at he
  have hlength := hway.length_le
  rw [← he, List.length_append, List.length_singleton] at hlength
  omega

theorem holds_eq_true_iff {places : List (List String)} {content : ByteArray} :
    holds top places content = true ↔ top.read places = .ok content := by
  rw [holds]
  cases top.read places with
  | error e => simp
  | ok held => simp [beq_content_iff]

/-- What is read is there, and so is the way to it. -/
theorem passes_of_holds (ha : a.WellNamed) {content : ByteArray}
    (h : holds top (Path.places (path root a)) content = true) :
    (∀ place ∈ Path.folderPlaces (path root a), top.Passes place) ∧
      Entry.isTooLong (filePlace root a) = false ∧
      top.standing? (filePlace root a) = some (.file content) := by
  obtain ⟨hplaces, hlast⟩ := places_path root ha
  obtain ⟨hpass, hfile⟩ := (Entry.read_eq_ok_iff hlast).mp (holds_eq_true_iff.mp h)
  refine ⟨?_, hfile⟩
  rw [hplaces, List.dropLast_concat] at hpass
  intro place hplace
  apply hpass
  rw [folderPlaces_path root ha, List.mem_append] at hplace
  exact List.mem_append.mpr (hplace.imp_left fun hp => Path.visits_filter_subset _ hp)

theorem destination_path (root : String) (ha : a.WellNamed) :
    destination (path root a) = filePlace root a := by
  obtain ⟨hplaces, hlast⟩ := places_path root ha
  have hne : Path.places (path root a) ≠ [] := by simp [hplaces]
  exact Option.some.inj ((Path.getLast?_places hne).symm.trans hlast)

/-- A file is read through its folders; dots on the way ask for nothing more. -/
theorem read_path_of_passes (ha : a.WellNamed) (htop : top.standing? [] = some .directory)
    (hfolders : ∀ place ∈ Path.folderPlaces (path root a), top.Passes place)
    (hshort : Entry.isTooLong (filePlace root a) = false) {content : ByteArray}
    (hfile : top.standing? (filePlace root a) = some (.file content)) :
    top.read (Path.places (path root a)) = .ok content := by
  obtain ⟨hplaces, hlast⟩ := places_path root ha
  rw [folderPlaces_path root ha, List.forall_mem_append] at hfolders
  rw [Entry.read_eq_ok_iff hlast, hplaces, List.dropLast_concat, List.forall_mem_append]
  refine ⟨⟨?_, hfolders.2⟩, hshort, hfile⟩
  intro place hplace
  rcases Path.mem_visits_filter hplace with rfl | hplace
  · exact ⟨rfl, htop⟩
  · exact hfolders.1 place hplace

/-- A file is read through its folders, so none of them is missing. -/
theorem standing?_of_holds (ha : a.WellNamed) {content : ByteArray}
    (h : holds top (Path.places (path root a)) content = true) :
    (∀ place ∈ folderPlaces root a, top.standing? place = some .directory) ∧
      top.standing? (filePlace root a) = some (.file content) := by
  obtain ⟨hpass, -, hfile⟩ := passes_of_holds ha h
  refine ⟨?_, hfile⟩
  intro place hplace
  rw [folderPlaces_path root ha] at hpass
  exact (hpass place (List.mem_append_right _ hplace)).2

theorem write_of_holds (h : holds top (Path.places (path root a)) a.source.toUTF8 = true) :
    write root a top = (.ok .unchanged, top) := by
  unfold write
  exact if_pos h

/-- A writer answers as the write does, and does not tell a file that was there from a new one. -/
theorem run_writer_of_write_eq {answer : Except WriteFailure WriteOutcome} {top' : Entry}
    (h : write root a top = (answer, top')) :
    (writer root a).run top = (answer.map fun _ => (), top') := by
  unfold StateT.run writer
  simp only [h]
  cases answer <;> rfl

section Write

variable (ha : a.WellNamed) (hopens : Opens root top)
  (hfit : ∀ name ∈ Path.segments a.relativePath, name.utf8ByteSize ≤ 255)
  (hfolders : ∀ place ∈ folderPlaces root a, ∀ content,
    top.standing? place ≠ some (.file content))
  (hfile : top.standing? (filePlace root a) ≠ some .directory)

include ha hopens hfit hfolders hfile

theorem write_of_not_holds
    (hholds : ¬holds top (Path.places (path root a)) a.source.toUTF8 = true) :
    ∃ top', write root a top = (.ok .written, top') ∧
      ∀ place, top'.standing? place =
        if place = filePlace root a then some (.file a.source.toUTF8)
        else if place ∈ folderPlaces root a then some .directory
        else top.standing? place := by
  rw [ha.segments_relativePath, List.forall_mem_append, List.forall_mem_singleton] at hfit
  obtain ⟨hfitFolders, hfitFile⟩ := hfit
  obtain ⟨made, hmake, hmade⟩ := Entry.makeDirectories_visits
    (fun _ hf => ha.isPlain_of_mem_folders hf) hfitFolders hopens.passes_destination.2 hfolders
  rw [← folderPlaces] at hmake hmade
  have hhere : made.standing? (destination root ++ a.folders) = some .directory := by
    rw [hmade]
    split_ifs with hp
    · rfl
    · by_cases hnil : a.folders = []
      · rw [hnil, List.append_nil]
        exact hopens.passes_destination.2
      · exact absurd ((mem_folderPlaces ha).mpr ⟨_, hnil, List.prefix_refl _, rfl⟩) hp
  have hplace : destination root ++ a.folders ++ [a.fileName] = filePlace root a :=
    List.append_assoc _ _ _
  have hfree : made.standing? (destination root ++ a.folders ++ [a.fileName]) ≠
      some .directory := by
    rw [hplace, hmade, if_neg (filePlace_notMem ha)]
    exact hfile
  obtain ⟨top', hwrite, hwritten⟩ :=
    Entry.write_concat a.source.toUTF8 hfitFile hhere hfree
  rw [hplace] at hwrite hwritten
  refine ⟨top', ?_, ?_⟩
  · unfold write
    simp only [if_neg hholds, makeDirectories_folderPlaces ha hopens, hmake,
      (places_path root ha).2, Option.getD_some, hwrite]
  · intro place
    rw [hwritten, hmade]

/-- Where no file stands for a folder and no directory for the file, an artifact is written: its
file gets the source, its folders are there, and nothing else changes. -/
theorem writer_of_opens :
    ∃ top', (writer root a).run top = (.ok (), top') ∧
      ∀ place, top'.standing? place =
        if place = filePlace root a then some (.file a.source.toUTF8)
        else if place ∈ folderPlaces root a then some .directory
        else top.standing? place := by
  obtain ⟨o, top', hwrite, hstands⟩ : ∃ o top', write root a top = (.ok o, top') ∧
      ∀ place, top'.standing? place =
        if place = filePlace root a then some (.file a.source.toUTF8)
        else if place ∈ folderPlaces root a then some .directory
        else top.standing? place := by
    by_cases hholds : holds top (Path.places (path root a)) a.source.toUTF8 = true
    · refine ⟨.unchanged, top, write_of_holds hholds, ?_⟩
      obtain ⟨hdirectories, hstands⟩ := standing?_of_holds ha hholds
      intro place
      split_ifs with hp hp'
      · rw [hp, hstands]
      · exact hdirectories place hp'
      · rfl
    · exact ⟨.written, write_of_not_holds ha hopens hfit hfolders hfile hholds⟩
  exact ⟨top', run_writer_of_write_eq hwrite, hstands⟩

end Write

end ViewWiring.Output
