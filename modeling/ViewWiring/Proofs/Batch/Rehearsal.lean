import ViewWiring.Proofs.Artifact.Superclass
import ViewWiring.Proofs.Batch.Artifacts
import ViewWiring.Proofs.Config.ClassNames
import ViewWiring.Proofs.Files.Output

namespace ViewWiring

open ViewWiring.Path (destination segments)

/-- Below a root a tree holds the files of the artifacts in a store and no others, and no directory
is called like a file. -/
structure Mirrors (root : String) (top : Entry) (store : Store) : Prop where
  opens : Output.Opens root top
  ordered : store.Ordered
  wellNamed : ∀ a ∈ store.artifacts, a.WellNamed
  files : ∀ place content, top.standing? (destination root ++ place) = some (.file content) ↔
    ∃ a ∈ store.artifacts, place = segments a.relativePath ∧ content = a.source.toUTF8
  directories : ∀ place, top.standing? (destination root ++ place) = some .directory →
    ∀ name ∈ place, '.' ∉ name.toList

namespace Mirrors

variable {root : String} {top : Entry} {store : Store}

theorem of_empty_root (h : top.follow (Path.places root) = .ok (.directory [])) :
    Mirrors root top .empty := by
  obtain ⟨hopens, hfind⟩ := Output.follow_eq_directory_iff.mp h
  have hbelow : ∀ name rest, top.standing? (destination root ++ name :: rest) = none := by
    intro name rest
    rw [Entry.standing?_append hfind]
    rfl
  have hhere : top.standing? (destination root) = some .directory :=
    hopens.passes_destination.2
  refine ⟨hopens, Store.ordered_empty, fun _ ha => absurd ha List.not_mem_nil, ?_, ?_⟩
  · intro place content
    cases place with
    | nil => simp [hhere, Store.empty]
    | cons name rest => simp [hbelow, Store.empty]
  · intro place hplace
    cases place with
    | nil => simp
    | cons name rest =>
      rw [hbelow] at hplace
      cases hplace

variable {a : Artifact}

theorem folder_not_file (h : Mirrors root top store) (ha : a.WellNamed) {place : List String}
    (hplace : place ∈ Output.folderPlaces root a) (content : ByteArray) :
    top.standing? place ≠ some (.file content) := by
  obtain ⟨way, -, hway, rfl⟩ := (Output.mem_folderPlaces ha).mp hplace
  intro hfile
  obtain ⟨b, hb, hsegments, -⟩ := (h.files way content).mp hfile
  have hname : b.fileName ∈ a.folders := by
    apply hway.subset
    rw [hsegments, (h.wellNamed b hb).segments_relativePath]
    exact List.mem_append_right _ (List.mem_singleton_self _)
  exact (ha.isWord_of_mem_folders hname).notMem (by decide) b.dot_mem_fileName

theorem file_not_directory (h : Mirrors root top store) (a : Artifact) :
    top.standing? (Output.filePlace root a) ≠ some .directory := by
  intro hdirectory
  have hname : a.fileName ∈ a.folders ++ [a.fileName] :=
    List.mem_append_right _ (List.mem_singleton_self _)
  exact h.directories _ hdirectory _ hname a.dot_mem_fileName

/-- An artifact put into the store takes its path, and all other paths stay as they are. -/
theorem files_insert (h : Mirrors root top store) (ha : a.WellNamed) (place : List String)
    (content : ByteArray) :
    (∃ b ∈ (store.insert a).artifacts,
        place = segments b.relativePath ∧ content = b.source.toUTF8) ↔
      if place = segments a.relativePath then content = a.source.toUTF8
      else ∃ b ∈ store.artifacts,
        place = segments b.relativePath ∧ content = b.source.toUTF8 := by
  have hother : ∀ b ∈ store.artifacts,
      segments b.relativePath = segments a.relativePath ↔ b.qualifiedName = a.qualifiedName :=
    fun b hb => Artifact.segments_relativePath_eq_iff (h.wellNamed b hb) ha
  simp only [h.ordered.mem_insert]
  split_ifs with hplace
  · constructor
    · rintro ⟨b, rfl | ⟨hb, hname⟩, hsegments, hcontent⟩
      · exact hcontent
      · exact absurd ((hother b hb).mp (hsegments.symm.trans hplace)) hname
    · exact fun hcontent => ⟨a, .inl rfl, hplace, hcontent⟩
  · constructor
    · rintro ⟨b, rfl | ⟨hb, -⟩, hsegments, hcontent⟩
      · exact absurd hsegments hplace
      · exact ⟨b, hb, hsegments, hcontent⟩
    · rintro ⟨b, hb, hsegments, hcontent⟩
      refine ⟨b, .inr ⟨hb, ?_⟩, hsegments, hcontent⟩
      exact fun hname => hplace (hsegments.trans ((hother b hb).mpr hname))

/-- What is written to the tree is written as the store takes it. -/
theorem writer (h : Mirrors root top store) (ha : a.WellNamed)
    (hfit : ∀ name ∈ segments a.relativePath, name.utf8ByteSize ≤ 255) :
    ∃ top', (Output.writer root a).run top = (.ok (), top') ∧
      Mirrors root top' (store.insert a) := by
  have hfolder := fun place (hp : place ∈ Output.folderPlaces root a) => h.folder_not_file ha hp
  obtain ⟨top', hrun, hstands⟩ :=
    Output.writer_of_opens ha h.opens hfit hfolder (h.file_not_directory a)
  refine ⟨top', hrun, h.opens.mono ?_, h.ordered.insert a, ?_, ?_, ?_⟩
  · intro place hdirectory
    have hne : place ≠ Output.filePlace root a := fun he => h.file_not_directory a (he ▸ hdirectory)
    simp [hstands, hne, hdirectory]
  · intro b hb
    rcases h.ordered.mem_insert.mp hb with rfl | ⟨hb, -⟩
    · exact ha
    · exact h.wellNamed b hb
  · intro place content
    have hplace : destination root ++ place = Output.filePlace root a ↔
        place = segments a.relativePath := by
      rw [ha.segments_relativePath, Output.filePlace, List.append_cancel_left_eq]
    rw [hstands, h.files_insert ha, ← h.files]
    simp only [hplace]
    split_ifs with _ hmade
    · simp [eq_comm]
    · simp [hfolder _ hmade content]
    · rfl
  · intro place hdirectory
    rw [hstands] at hdirectory
    split at hdirectory
    · cases hdirectory
    split at hdirectory
    · rename_i hmade
      obtain ⟨way, -, hway, he⟩ := (Output.mem_folderPlaces ha).mp hmade
      rw [List.append_cancel_left_eq] at he
      intro name hname
      exact (ha.isWord_of_mem_folders (hway.subset (he ▸ hname))).notMem (by decide)
    · exact h.directories place hdirectory

/-- A run of writes keeps the tree and the store alike. -/
theorem mapM_writer (h : Mirrors root top store) {as : List Artifact}
    (hnamed : ∀ a ∈ as, a.WellNamed)
    (hfit : ∀ a ∈ as, ∀ name ∈ segments a.relativePath, name.utf8ByteSize ≤ 255) :
    ∃ top', (as.mapM (Output.writer root)).run top = (as.map fun _ => .ok (), top') ∧
      Mirrors root top' (store.insertAll as) := by
  induction as generalizing top store with
  | nil => exact ⟨top, rfl, h⟩
  | cons a as ih =>
    obtain ⟨ha, has⟩ := List.forall_mem_cons.mp hnamed
    obtain ⟨hfita, hfitas⟩ := List.forall_mem_cons.mp hfit
    obtain ⟨top₁, hrun, hmirrors⟩ := h.writer ha hfita
    obtain ⟨top', hruns, hmirrors'⟩ := ih hmirrors has hfitas
    exact ⟨top', run_mapM_cons hrun hruns, hmirrors'⟩

/-- A file that the tree holds is found on the path of its artifact. -/
theorem read (h : Mirrors root top store) (ha : a ∈ store.artifacts)
    (hfit : ∀ name ∈ segments a.relativePath, name.utf8ByteSize ≤ 255) :
    top.read (Path.places (Output.path root a)) = .ok a.source.toUTF8 := by
  have hnamed := h.wellNamed a ha
  obtain ⟨hplaces, hlast⟩ := Output.places_path root hnamed
  have hfile : top.standing? (Output.filePlace root a) = some (.file a.source.toUTF8) := by
    rw [Output.filePlace, ← hnamed.segments_relativePath]
    exact (h.files _ _).mpr ⟨a, ha, rfl, rfl⟩
  rw [hnamed.segments_relativePath, List.forall_mem_append, List.forall_mem_singleton] at hfit
  obtain ⟨hfitFolders, hfitFile⟩ := hfit
  rw [Entry.read_eq_ok_iff hlast, hplaces, List.dropLast_concat, List.forall_mem_append]
  refine ⟨⟨fun _ hp => h.opens.passes_way hp, ?_⟩, ?_, hfile⟩
  · intro place hplace
    obtain ⟨way, hne, ⟨rest, hrest⟩, rfl⟩ := (Output.mem_folderPlaces hnamed).mp hplace
    refine ⟨Entry.isTooLong_append hne ?_, ?_⟩
    · exact fun name hname => hfitFolders name (hrest ▸ List.mem_append_left _ hname)
    · rw [Output.filePlace, ← hrest, List.append_assoc, ← List.append_assoc] at hfile
      exact Entry.standing?_of_below (by simp) hfile
  · rw [Output.filePlace, ← List.append_assoc, Entry.isTooLong_concat]
    exact hfitFile

end Mirrors

namespace Manifest

variable {m : Manifest} {d : Declarations}

theorem wellNamed_of_mem_artifacts (hm : m.declarations = .ok d) {config : Config}
    (hlegal : config.Legal) {a : Artifact} (ha : a ∈ d.toSource.artifacts config) :
    a.WellNamed := by
  obtain ⟨b, hb, hab⟩ := List.mem_filterMap.mp ha
  obtain ⟨c, hc, hname, hpackage, -⟩ := d.toSource.component_of_mem_bindings config hb
  obtain ⟨hap, hac⟩ := ComponentBinding.named_of_artifact? hab
  have hwell := wellNamed_of_mem hm (List.mem_of_find?_eq_some hc)
  refine ⟨?_, ?_⟩
  · rw [hap, ← hpackage]
    exact hwell.package.imp_right And.left
  · rw [hac]
    exact hlegal.isWord_className (hname ▸ hwell.name)

/-- A batch run into an empty store tells what a run into an empty directory does, when no name in
the path of an artifact is too long: the report is the same, the files below the directory are those
of the artifacts in the store and no others, and each is read on its path. -/
theorem rehearsal_predicts_run (hm : m.declarations = .ok d) {config : Config}
    (hc : config.check = .ok config) {root : String} {top : Entry}
    (hroot : top.follow (Path.places root) = .ok (.directory [])) :
    let checked := (d.toSource.process config Store.writer).run .empty
    let written := (d.toSource.process config (Output.writer root)).run top
    (∀ a ∈ checked.2.artifacts, ∀ name ∈ segments a.relativePath, name.utf8ByteSize ≤ 255) →
      written.1 = checked.1 ∧
      (∃ out, written.2.follow (Path.places root) = .ok out ∧
        ∀ place content, out.find? place = some (.file content) ↔
          ∃ a ∈ checked.2.artifacts,
            place = segments a.relativePath ∧ content = a.source.toUTF8) ∧
      ∀ a ∈ checked.2.artifacts,
        written.2.read (Path.places (Output.path root a)) = .ok a.source.toUTF8 := by
  intro checked written hfit
  let as := d.toSource.artifacts config
  have hlegal := ((config.check_eq_ok_iff config).mp hc).1
  have hnamed : ∀ a ∈ as, a.WellNamed := fun a ha => wellNamed_of_mem_artifacts hm hlegal ha
  have hstore : checked.2 = Store.empty.insertAll as := (d.toSource.process_writer config).2
  rw [hstore] at hfit
  -- an artifact that is replaced goes by the path of the one that stays
  have hfitAll : ∀ a ∈ as, ∀ name ∈ segments a.relativePath, name.utf8ByteSize ≤ 255 := by
    intro a ha
    have hkept : a.qualifiedName ∈ (Store.empty.insertAll as).names :=
      Store.mem_names_insertAll.mpr (.inr (List.mem_map_of_mem ha))
    obtain ⟨b, hb, hname⟩ := List.mem_map.mp hkept
    have hbNamed := hnamed b (Store.mem_of_mem_insertAll hb)
    rw [← (Artifact.segments_relativePath_eq_iff hbNamed (hnamed a ha)).mpr hname]
    exact hfit b hb
  obtain ⟨top', hrun, hmirrors⟩ := (Mirrors.of_empty_root hroot).mapM_writer hnamed hfitAll
  have hreport : written.1 = checked.1 := by
    change ((d.toSource.process config (Output.writer root)).run top).1 =
      ((d.toSource.process config Store.writer).run .empty).1
    rw [Source.report_process, Source.report_process, Store.run_mapM_writer, hrun]
  have hwritten : written.2 = top' := by
    change ((d.toSource.process config (Output.writer root)).run top).2 = top'
    rw [Source.state_process, hrun]
  obtain ⟨out, hout⟩ := Entry.exists_directory_of_standing? hmirrors.opens.passes_destination.2
  rw [hwritten, hstore]
  refine ⟨hreport, ⟨_, Output.follow_eq_directory_iff.mpr ⟨hmirrors.opens, hout⟩, ?_⟩, ?_⟩
  · intro place content
    rw [← hmirrors.files, Entry.standing?_append hout, Entry.standing?_eq_file_iff]
  · exact fun a ha => hmirrors.read ha (hfit a ha)

theorem rehearsal_predicts_run_nested :
    let entry (name : String) (package : Option String) (layout : Int) : ComponentEntry :=
      ⟨name, .«class», package, some "android.app.Activity", some layout, []⟩
    let manifest : Manifest :=
      ⟨[entry "a.Main" none 1, entry "a.Outer.Main" (some "a") 2, entry "Main" none 3], []⟩
    let top : Entry := .directory [("out", .directory [])]
    ∃ d, manifest.declarations = .ok d ∧ Config.standard.check = .ok .standard ∧
      top.follow (Path.places "out/") = .ok (.directory []) ∧
      let checked := (d.toSource.process .standard Store.writer).run .empty
      let written := (d.toSource.process .standard (Output.writer "out/")).run top
      checked.2.artifacts.map Artifact.relativePath = ["Main_.java", "a/Main_.java"] ∧
      (∀ a ∈ checked.2.artifacts, ∀ name ∈ segments a.relativePath, name.utf8ByteSize ≤ 255) ∧
      written.1 = checked.1 ∧
      (∃ out, written.2.follow (Path.places "out/") = .ok out ∧
        ∀ place content, out.find? place = some (.file content) ↔
          ∃ a ∈ checked.2.artifacts,
            place = segments a.relativePath ∧ content = a.source.toUTF8) ∧
      ∀ a ∈ checked.2.artifacts,
        written.2.read (Path.places (Output.path "out/" a)) = .ok a.source.toUTF8 := by
  intro entry manifest top
  let screen (name package : String) (layout : Int) : Component :=
    ⟨⟨name⟩, package, .«class», some ⟨"android.app.Activity"⟩, some layout, []⟩
  let d : Declarations := ⟨[screen "a.Main" "a" 1, screen "a.Outer.Main" "a" 2,
    screen "Main" "" 3], [], []⟩
  have hm : manifest.declarations = .ok d := by decide +kernel
  have hc : Config.standard.check = .ok .standard := by decide +kernel
  have hplaces : Path.places "out/" = [["out"], ["out"]] := by decide +kernel
  have hroot : top.follow (Path.places "out/") = .ok (.directory []) := by
    rw [hplaces]
    rfl
  have hfit : ∀ a ∈ ((d.toSource.process .standard Store.writer).run .empty).2.artifacts,
      ∀ name ∈ segments a.relativePath, name.utf8ByteSize ≤ 255 := by
    decide +kernel
  exact ⟨d, hm, hc, hroot, by decide +kernel, hfit, rehearsal_predicts_run hm hc hroot hfit⟩

end Manifest

end ViewWiring
