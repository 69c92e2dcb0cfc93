import ViewWiring.Proofs.Batch.Refusals
import ViewWiring.Proofs.Files.Cleared
import ViewWiring.Proofs.Files.Output

namespace ViewWiring

/-- What an offer puts in a place: the source of its artifact in the place of its file, if it was
accepted. -/
def Offer.written? (root : String) (o : Offer) (place : List String) : Option ByteArray :=
  match o.answer with
  | .ok () =>
    if place = Output.filePlace root o.artifact then some o.artifact.source.toUTF8 else none
  | .error _ => none

namespace Output

open ViewWiring.Path (destination names visits)

variable {root : String} {top : Entry} {a : Artifact}

/-- Where a file is to be written, all folders on the way to it stand. -/
theorem standing?_parent (ha : a.WellNamed) (htop : top.standing? [] = some .directory)
    (h : ∀ place ∈ Path.folderPlaces (path root a), top.Passes place) :
    top.standing? (destination root ++ a.folders) = some .directory := by
  have hlast : (visits [] ((names root).filter (· != ".") ++ a.folders)).getLast? = _ :=
    Path.getLast?_visits _
  rw [List.foldl_append, Path.foldl_step_filter,
    Path.foldl_step_of_isPlain fun _ hf => ha.isPlain_of_mem_folders hf, ← destination,
    ← folderPlaces_path_eq_visits root ha] at hlast
  split_ifs at hlast with hnil
  · obtain ⟨hroot, hfolders⟩ := List.append_eq_nil_iff.mp hnil
    have hdestination : destination root = [] := by
      rw [destination, ← Path.foldl_step_filter, hroot, List.foldl_nil]
    rw [hdestination, hfolders]
    exact htop
  · exact (h _ (List.mem_of_getLast? hlast)).2

/-- A tree in which an offer meets its answer again: the folders of the artifact stand as far as
they can, and its place accounts for the answer. -/
inductive Settled (root : String) (top : Entry) : Offer → Prop
  | folders {a : Artifact} {e : FileError}
      (h : top.Cleared (Path.folderPlaces (path root a)) (.error e)) :
      Settled root top ⟨a, .error (failure root a e)⟩
  | file {a : Artifact} {answer : Except FileError Unit}
      (h : top.Cleared (Path.folderPlaces (path root a)) (.ok ()))
      (hfile : top.Filed (filePlace root a) answer) :
      Settled root top ⟨a, answer.mapError (failure root a)⟩

namespace Settled

variable {o : Offer}

theorem mono (h : Settled root top o) {top' : Entry} (hg : top.Grows top') :
    Settled root top' o := by
  cases h with
  | folders h => exact .folders (h.mono hg)
  | file h hfile => exact .file (h.mono hg) (hfile.mono hg)

theorem unique {answer answer' : Except WriteFailure Unit} (h : Settled root top ⟨a, answer⟩)
    (h' : Settled root top ⟨a, answer'⟩) : answer = answer' := by
  cases h with
  | folders h =>
    cases h' with
    | folders h' => rw [Except.error.inj (h.unique h')]
    | file h' _ => cases h.unique h'
  | file h hfile =>
    cases h' with
    | folders h' => cases h.unique h'
    | file _ hfile' => rw [hfile.unique hfile']

end Settled

theorem run_writer_of_holds
    (h : holds top (Path.places (path root a)) a.source.toUTF8 = true) :
    (writer root a).run top = (.ok (), top) :=
  run_writer_of_write_eq (write_of_holds h)

section NotHeld

variable (h : ¬holds top (Path.places (path root a)) a.source.toUTF8 = true) {made : Entry}

include h

theorem run_writer_of_error {e : FileError}
    (hmake : top.makeDirectories (Path.folderPlaces (path root a)) = (.error e, made)) :
    (writer root a).run top = (.error (failure root a e), made) := by
  unfold StateT.run writer write
  simp only [if_neg h, hmake]

theorem run_writer_of_write (ha : a.WellNamed) {top' : Entry} {answer : Except FileError Unit}
    (hmake : top.makeDirectories (Path.folderPlaces (path root a)) = (.ok (), made))
    (hwrite : made.write (filePlace root a) a.source.toUTF8 = (answer, top')) :
    (writer root a).run top = (answer.mapError (failure root a), top') := by
  unfold StateT.run writer write
  simp only [if_neg h, hmake, (places_path root ha).2, Option.getD_some, hwrite]
  cases answer <;> rfl

end NotHeld

/-- A write makes the folders of its artifact as far as it can, then puts the file in its place if
it can, and does nothing else; what it answers is settled. -/
theorem writer_settles (root : String) (ha : a.WellNamed)
    (htop : top.standing? [] = some .directory) :
    ∃ answer top', (writer root a).run top = (answer, top') ∧ Settled root top' ⟨a, answer⟩ ∧
      top.Grows top' ∧
      ∃ made, (∀ answer, top.Cleared (Path.folderPlaces (path root a)) answer → made = top) ∧
        top.AddsDirectories made ∧
        ∀ place, top'.standing? place =
          (((Offer.mk a answer).written? root place).map .file).or (made.standing? place) := by
  by_cases hholds : holds top (Path.places (path root a)) a.source.toUTF8 = true
  · -- what is there to be read is there with its folders, so nothing was left to make
    obtain ⟨hfolders, hshort, hfile⟩ := passes_of_holds ha hholds
    refine ⟨.ok (), top, run_writer_of_holds hholds,
      .file (.of_passes hfolders) (.file hshort hfile), .refl top,
      top, fun _ _ => rfl, .refl top, ?_⟩
    intro place
    rw [Offer.written?]
    split_ifs with hp
    · rw [hp]
      exact hfile
    · rfl
  · obtain ⟨answer, made, hmake, hcleared, hadds⟩ :=
      Entry.makeDirectories_cleared htop ((names root).filter (· != ".") ++ a.folders)
    rw [← folderPlaces_path_eq_visits root ha] at hmake hcleared
    have hstays : ∀ answer', top.Cleared (Path.folderPlaces (path root a)) answer' → made = top := by
      intro answer' h
      rw [h.makeDirectories_eq] at hmake
      exact (congrArg Prod.snd hmake).symm
    cases answer with
    | error e =>
      exact ⟨_, made, run_writer_of_error hholds hmake, .folders hcleared, hadds.grows,
        made, hstays, hadds, fun _ => rfl⟩
    | ok =>
      have hparent := standing?_parent ha (hadds.grows.directory htop)
        (hcleared.answer_eq_ok_iff.mp rfl)
      obtain ⟨answer, top', hwrite, hfiled, hgrows, hstands⟩ :=
        Entry.write_filed hparent a.fileName a.source.toUTF8
      rw [List.append_assoc, ← filePlace] at hwrite hfiled
      refine ⟨_, top', run_writer_of_write hholds ha hmake hwrite,
        .file (hcleared.mono hgrows) hfiled, hadds.grows.trans hgrows, made, hstays, hadds, ?_⟩
      intro place
      rw [hstands, List.append_assoc, ← filePlace, Offer.written?]
      cases answer with
      | error e => simp [Except.mapError]
      | ok => by_cases hp : place = filePlace root a <;> simp [Except.mapError, hp]

end Output

end ViewWiring
