import ViewWiring.Proofs.Batch.Refusals
import ViewWiring.Proofs.Batch.Rehearsal
import ViewWiring.Proofs.Text.PrefixCodes

namespace ViewWiring

namespace Path

/-- Plain names are put behind a name with a slash before each of them. -/
theorem toList_foldl_join {base : String} {parts : List String} (hne : base ≠ "")
    (hslash : base.toList.getLast? ≠ some '/') (h : ∀ part ∈ parts, IsPlain part) :
    (parts.foldl join base).toList =
      base.toList ++ parts.flatMap fun part => '/' :: part.toList := by
  induction parts generalizing base with
  | nil => simp
  | cons part parts ih =>
    obtain ⟨hpart, hparts⟩ := List.forall_mem_cons.mp h
    have hjoin : join base part = base ++ "/" ++ part := by
      obtain ⟨he, -⟩ | ⟨before, hbase, -⟩ | ⟨-, hj⟩ := join_cases base hpart.head?_ne
      · exact absurd he hne
      · exact absurd (by simp [hbase]) hslash
      · exact hj
    have hlast : (join base part).toList.getLast? ≠ some '/' := by
      rw [getLast?_join hpart.head?_ne hpart.ne_empty]
      exact fun hl => hpart.slash_notMem (List.mem_of_getLast? hl)
    rw [List.foldl_cons, ih (by simp [hjoin]) hlast hparts, hjoin]
    simp

/-- A path made of plain names is spelt by them with slashes between. -/
theorem foldl_join_empty {parts : List String} (h : ∀ part ∈ parts, IsPlain part) :
    parts.foldl join "" = "/".intercalate parts := by
  cases parts with
  | nil => rfl
  | cons part parts =>
    obtain ⟨hpart, hparts⟩ := List.forall_mem_cons.mp h
    have hjoin : join "" part = part := by simp [join]
    have hlast : part.toList.getLast? ≠ some '/' :=
      fun hl => hpart.slash_notMem (List.mem_of_getLast? hl)
    rw [← String.toList_inj, List.foldl_cons, hjoin,
      toList_foldl_join hpart.ne_empty hlast hparts, String.toList_intercalate, List.map_cons]
    simp only [intercalate_singleton_cons, List.flatMap_map, String.reduceToList]

end Path

namespace Artifact

open ViewWiring.Path (IsPlain destination segments)

variable {a b : Artifact}

theorem WellNamed.isPlain_of_mem_segments (h : a.WellNamed) :
    ∀ name ∈ a.folders ++ [a.fileName], IsPlain name := by
  rw [List.forall_mem_append, List.forall_mem_singleton]
  exact ⟨fun _ hf => h.isPlain_of_mem_folders hf, h.isPlain_fileName⟩

theorem WellNamed.relativePath_eq (h : a.WellNamed) :
    a.relativePath = "/".intercalate (a.folders ++ [a.className ++ ".java"]) := by
  change a.relativePath = "/".intercalate (a.folders ++ [a.fileName])
  rw [← Path.foldl_join_empty h.isPlain_of_mem_segments, List.foldl_append]
  rfl

/-- A path that goes down from wherever it starts, through folders called by identifiers to a file
called by a word and the ending of sources. -/
structure LeadsDown (a : Artifact) : Prop where
  relativePath_eq : a.relativePath = "/".intercalate (a.folders ++ [a.className ++ ".java"])
  segments_eq : segments a.relativePath = a.folders ++ [a.className ++ ".java"]
  folders : ∀ folder ∈ a.folders, isIdentifier folder = true
  className : a.className ≠ "" ∧ ∀ c ∈ a.className.toList, isIdentifierPart c = true
  plain : ∀ name ∈ segments a.relativePath, IsPlain name
  below : ∀ root, (Path.places (Output.path root a)).getLast? =
    some (destination root ++ segments a.relativePath)

theorem WellNamed.isIdentifier_of_mem_folders (h : a.WellNamed) :
    ∀ folder ∈ a.folders, isIdentifier folder = true := by
  rcases h.package with hp | hp
  · simp [folders_of_package_eq hp]
  · exact (folders_of_isQualifiedName hp).2

theorem WellNamed.leadsDown (h : a.WellNamed) : a.LeadsDown where
  relativePath_eq := h.relativePath_eq
  segments_eq := h.segments_relativePath
  folders := h.isIdentifier_of_mem_folders
  className := ⟨h.className.ne_empty, fun _ hc => h.className.isIdentifierPart_of_mem hc⟩
  plain := by
    rw [h.segments_relativePath]
    exact h.isPlain_of_mem_segments
  below root := by
    rw [(Output.places_path root h).2, h.segments_relativePath, Output.filePlace]

theorem WellNamed.relativePath_eq_iff (ha : a.WellNamed) (hb : b.WellNamed) :
    a.relativePath = b.relativePath ↔ a.qualifiedName = b.qualifiedName := by
  constructor
  · intro h
    exact (segments_relativePath_eq_iff ha hb).mp (congrArg segments h)
  · intro h
    have hsegments := (segments_relativePath_eq_iff ha hb).mpr h
    rw [ha.segments_relativePath, hb.segments_relativePath] at hsegments
    rw [ha.relativePath_eq, hb.relativePath_eq]
    exact congrArg _ hsegments

/-- A file has a dot in its name and a folder has none. -/
theorem WellNamed.not_prefix_folders (ha : a.WellNamed) (hb : b.WellNamed) :
    ¬segments a.relativePath <+: (segments b.relativePath).dropLast := by
  rw [ha.segments_relativePath, hb.segments_relativePath, List.dropLast_concat]
  intro h
  have hname : a.fileName ∈ b.folders :=
    h.subset (List.mem_append_right _ (List.mem_singleton_self _))
  exact (hb.isWord_of_mem_folders hname).notMem (by decide) a.dot_mem_fileName

end Artifact

namespace Manifest

open ViewWiring.Path (segments)

variable {m : Manifest} {d : Declarations}

/-- Whatever a writer answers, the artifacts that a batch offers to it go by relative paths that lead
down; two of them go by one path iff they have one qualified name, and none stands where another
needs a folder. -/
theorem offered_paths_apart (hm : m.declarations = .ok d) {config : Config}
    (hc : config.check = .ok config) {σ : Type} (write : Writer (StateM σ)) (s : σ) :
    let offered :=
      ((d.toSource.process config write.recorded).run (s, [])).2.2.map Offer.artifact
    (∀ a ∈ offered, a.LeadsDown) ∧
    ∀ a ∈ offered, ∀ b ∈ offered,
      (a.relativePath = b.relativePath ↔ a.qualifiedName = b.qualifiedName) ∧
      ¬segments a.relativePath <+: (segments b.relativePath).dropLast := by
  intro offered
  have hlegal := ((config.check_eq_ok_iff config).mp hc).1
  have hnamed : ∀ a ∈ offered, a.WellNamed := by
    intro a ha
    have hartifact : a ∈ d.toSource.artifacts config := by
      rwa [← d.toSource.map_artifact_recorded config write s]
    exact wellNamed_of_mem_artifacts hm hlegal hartifact
  refine ⟨fun a ha => (hnamed a ha).leadsDown, ?_⟩
  intro a ha b hb
  exact ⟨(hnamed a ha).relativePath_eq_iff (hnamed b hb),
    (hnamed a ha).not_prefix_folders (hnamed b hb)⟩

theorem offered_paths_apart_nested :
    let entry (name : String) (package : Option String) (layout : Int) : ComponentEntry :=
      ⟨name, .«class», package, some "android.app.Activity", some layout, []⟩
    let manifest : Manifest := ⟨[entry "a.Main" none 1, entry "a.b.Outer.Main" (some "a.b") 2,
      entry "a.Outer.Main" (some "") 3], []⟩
    ∃ d, manifest.declarations = .ok d ∧ Config.standard.check = .ok .standard ∧
      let offered :=
        ((d.toSource.process .standard Store.writer.recorded).run (.empty, [])).2.2.map
          Offer.artifact
      offered.map Artifact.relativePath = ["a/Main_.java", "a/b/Main_.java", "Main_.java"] ∧
      (∀ a ∈ offered, a.LeadsDown) ∧
      ∀ a ∈ offered, ∀ b ∈ offered,
        (a.relativePath = b.relativePath ↔ a.qualifiedName = b.qualifiedName) ∧
        ¬segments a.relativePath <+: (segments b.relativePath).dropLast := by
  intro entry manifest
  let screen (name package : String) (layout : Int) : Component :=
    ⟨⟨name⟩, package, .«class», some ⟨"android.app.Activity"⟩, some layout, []⟩
  let d : Declarations := ⟨[screen "a.Main" "a" 1, screen "a.b.Outer.Main" "a.b" 2,
    screen "a.Outer.Main" "" 3], [], []⟩
  have hm : manifest.declarations = .ok d := by decide +kernel
  have hc : Config.standard.check = .ok .standard := by decide +kernel
  exact ⟨d, hm, hc, by decide +kernel, offered_paths_apart hm hc Store.writer .empty⟩

end Manifest

end ViewWiring
