import ViewWiring.Files.Output
import ViewWiring.Proofs.Artifact.Naming
import ViewWiring.Proofs.Files.Places

namespace ViewWiring

theorem IsWord.isPlain {name : String} (h : IsWord name) : Path.IsPlain name := by
  have hdot : '.' ∉ name.toList := h.notMem (by decide)
  refine ⟨h.ne_empty, h.notMem (by decide), ?_, ?_⟩
  all_goals
    rintro rfl
    exact hdot (by decide)

namespace Artifact

variable {a b : Artifact}

/-- How generation names an artifact. -/
structure WellNamed (a : Artifact) : Prop where
  package : a.package = "" ∨ isQualifiedName a.package = true
  className : IsWord a.className

def fileName (a : Artifact) : String := a.className ++ ".java"

theorem folders_of_package_eq (h : a.package = "") : a.folders = [] := by
  rw [folders, h]
  decide +kernel

/-- No part of a qualified name is empty, so all of them are folders. -/
theorem folders_of_isQualifiedName (h : isQualifiedName a.package = true) :
    a.folders = (a.package.toList.splitOn '.').map String.ofList ∧
      ∀ folder ∈ a.folders, isIdentifier folder = true := by
  have hparts : ∀ part ∈ (a.package.toList.splitOn '.').map String.ofList,
      isIdentifier part = true := by
    intro part hpart
    obtain ⟨cs, hcs, rfl⟩ := List.mem_map.mp hpart
    exact List.all_eq_true.mp h cs hcs
  have hall : a.folders = (a.package.toList.splitOn '.').map String.ofList := by
    apply List.filter_eq_self.mpr
    intro part hpart
    have hne := (isIdentifier_iff.mp (hparts part hpart)).1.ne_empty
    simpa using hne
  rw [hall]
  exact ⟨rfl, hparts⟩

theorem WellNamed.isWord_of_mem_folders (h : a.WellNamed) {folder : String}
    (hf : folder ∈ a.folders) : IsWord folder := by
  rcases h.package with hp | hp
  · rw [folders_of_package_eq hp] at hf
    cases hf
  · exact (isIdentifier_iff.mp ((folders_of_isQualifiedName hp).2 folder hf)).1

/-- The folders are the parts of the package, which joins them by dots. -/
theorem WellNamed.package_eq_intercalate (h : a.WellNamed) :
    a.package.toList = ['.'].intercalate (a.folders.map String.toList) := by
  rcases h.package with hp | hp
  · rw [folders_of_package_eq hp, hp]
    rfl
  · rw [(folders_of_isQualifiedName hp).1, List.map_map]
    have hid : String.toList ∘ String.ofList = id := funext fun _ => String.toList_ofList
    rw [hid, List.map_id, List.intercalate_splitOn]

theorem WellNamed.isPlain_fileName (h : a.WellNamed) : Path.IsPlain a.fileName := by
  have hchars : a.fileName.toList = a.className.toList ++ ['.', 'j', 'a', 'v', 'a'] :=
    String.toList_append
  have hlong : 5 ≤ a.fileName.toList.length := by simp [hchars]
  refine ⟨?_, ?_, ?_, ?_⟩
  · intro he
    simp [he] at hlong
  · rw [hchars, List.mem_append, not_or]
    exact ⟨h.className.notMem (by decide), by decide⟩
  all_goals
    intro he
    rw [he] at hlong
    revert hlong
    decide

theorem dot_mem_fileName (a : Artifact) : '.' ∈ a.fileName.toList := by
  simp [fileName]

theorem getLast?_fileName (a : Artifact) : a.fileName.toList.getLast? = some 'a' := by
  simp [fileName]

theorem WellNamed.isPlain_of_mem_folders (h : a.WellNamed) {folder : String}
    (hf : folder ∈ a.folders) : Path.IsPlain folder :=
  (h.isWord_of_mem_folders hf).isPlain

/-- An artifact's path is relative and goes through its folders to its file. -/
theorem WellNamed.relativePath_spells (h : a.WellNamed) :
    Path.names a.relativePath = a.folders ++ [a.fileName] ∧
      a.relativePath.toList.head? ≠ some '/' ∧ a.relativePath.toList.getLast? = some 'a' := by
  have hfile := h.isPlain_fileName
  have hhead : (a.folders.foldl Path.join "").toList.head? ≠ some '/' :=
    Path.head?_foldl_join (by simp) fun _ hf => h.isPlain_of_mem_folders hf
  change Path.names (Path.join _ a.fileName) = _ ∧
    (Path.join _ a.fileName).toList.head? ≠ _ ∧ (Path.join _ a.fileName).toList.getLast? = _
  refine ⟨?_, Path.head?_join hhead hfile.head?_ne, ?_⟩
  · rw [Path.names_join hfile.head?_ne, hfile.names_eq,
      Path.names_foldl_join fun _ hf => h.isPlain_of_mem_folders hf, Path.names_empty,
      List.nil_append]
  · rw [Path.getLast?_join hfile.head?_ne hfile.ne_empty, a.getLast?_fileName]

theorem WellNamed.segments_relativePath (h : a.WellNamed) :
    Path.segments a.relativePath = a.folders ++ [a.fileName] := by
  obtain ⟨hnames, -, hlast⟩ := h.relativePath_spells
  rw [Path.segments_eq_names (by rw [hlast]; decide), hnames]

/-- Below a root the path goes on in the same way. -/
theorem WellNamed.path_spells (h : a.WellNamed) (root : String) :
    Path.names (Output.path root a) = Path.names root ++ (a.folders ++ [a.fileName]) ∧
      (Output.path root a).toList.getLast? ≠ some '/' := by
  obtain ⟨hnames, hhead, hlast⟩ := h.relativePath_spells
  have hne : a.relativePath ≠ "" := by
    intro he
    simp [he] at hlast
  rw [Output.path, Path.names_join hhead, hnames, Path.getLast?_join hhead hne, hlast]
  exact ⟨rfl, by decide⟩

/-- Empty parts of a package lead nowhere, so what counts for the path are the folders. -/
theorem exists_wellNamed {a : Artifact} (hfolders : ∀ folder ∈ a.folders, isIdentifier folder = true)
    (hclass : isIdentifier a.className = true) :
    ∃ b : Artifact, b.WellNamed ∧ b.relativePath = a.relativePath ∧ b.source = a.source := by
  have hword : IsWord a.className := (isIdentifier_iff.mp hclass).1
  by_cases hnil : a.folders = []
  · refine ⟨⟨"", a.className, a.source⟩, ⟨.inl rfl, hword⟩, ?_, rfl⟩
    rw [relativePath, relativePath, folders_of_package_eq rfl, hnil]
  · obtain ⟨package, hpackage⟩ :
        ∃ package : String, package.toList = ['.'].intercalate (a.folders.map String.toList) :=
      ⟨String.ofList _, String.toList_ofList⟩
    have hsplit : package.toList.splitOn '.' = a.folders.map String.toList := by
      rw [hpackage]
      apply List.splitOn_intercalate _ _ (by simpa using hnil)
      intro part hpart
      obtain ⟨folder, hfolder, rfl⟩ := List.mem_map.mp hpart
      exact (isIdentifier_iff.mp (hfolders folder hfolder)).1.notMem (by decide)
    have hqualified : isQualifiedName package = true := by
      rw [isQualifiedName, hsplit, List.all_map, List.all_eq_true]
      intro folder hfolder
      rw [Function.comp_apply, String.ofList_toList]
      exact hfolders folder hfolder
    let b : Artifact := ⟨package, a.className, a.source⟩
    have hb : b.folders = a.folders := by
      have hid : String.ofList ∘ String.toList = id := funext fun _ => String.ofList_toList
      rw [(folders_of_isQualifiedName hqualified).1, hsplit, List.map_map, hid, List.map_id]
    exact ⟨b, ⟨.inr hqualified, hword⟩, by rw [relativePath, hb]; rfl, rfl⟩

/-- Artifacts go by the same path iff they have the same qualified name. -/
theorem segments_relativePath_eq_iff (ha : a.WellNamed) (hb : b.WellNamed) :
    Path.segments a.relativePath = Path.segments b.relativePath ↔
      a.qualifiedName = b.qualifiedName := by
  have hdot : ∀ {c : Artifact}, c.WellNamed → '.' ∉ c.className.toList :=
    fun hc => hc.className.notMem (by decide)
  rw [ha.segments_relativePath, hb.segments_relativePath, qualifiedName_eq_iff (hdot ha) (hdot hb)]
  constructor
  · intro he
    obtain ⟨hfolders, hfile⟩ := List.append_inj' he rfl
    refine ⟨?_, ?_⟩
    · rw [← String.toList_inj, ha.package_eq_intercalate, hb.package_eq_intercalate, hfolders]
    · exact (String.append_left_inj _).mp (List.singleton_inj.mp hfile)
  · rintro ⟨hpackage, hclass⟩
    rw [folders, folders, fileName, fileName, hpackage, hclass]

end Artifact

end ViewWiring
