import ViewWiring.Proofs.Files.Settled

namespace ViewWiring

namespace Entry

variable {top top' : Entry}

/-- A place holds the same regular file in both trees, or none in either. -/
def SameFile (top top' : Entry) (place : List String) : Prop :=
  ∀ content, top'.find? place = some (.file content) ↔ top.find? place = some (.file content)

theorem AddsDirectories.sameFile (h : top.AddsDirectories top') (place : List String) :
    top.SameFile top' place := by
  intro content
  rw [← standing?_eq_file_iff, ← standing?_eq_file_iff]
  rcases h place with hs | ⟨hnone, hs⟩
  · rw [hs]
  · simp [hnone, hs]

/-- What keeps a file from being written at a place behind folders: a name that is too long, a file
where a folder is needed, or a directory in place of the file. -/
inductive Obstructs (top : Entry) (folders : List (List String)) (place : List String) :
    FileError → Prop
  | tooLong {p : List String} (hp : p ∈ folders ∨ p = place) (hlong : isTooLong p = true) :
      Obstructs top folders place .nameTooLong
  | file {p : List String} {content : ByteArray} {e : FileError} (hp : p ∈ folders)
      (hf : top.find? p = some (.file content)) (he : e = .alreadyExists ∨ e = .notDirectory) :
      Obstructs top folders place e
  | directory {es : List (String × Entry)} (hd : top.find? place = some (.directory es)) :
      Obstructs top folders place .isDirectory

variable {folders : List (List String)} {place : List String} {answer : Except FileError Unit}

theorem Obstructs.cons {e : FileError} (h : top.Obstructs folders place e) (p : List String) :
    top.Obstructs (p :: folders) place e := by
  cases h with
  | tooLong hp hlong => exact .tooLong (hp.imp_left (List.mem_cons_of_mem _)) hlong
  | file hp hf he => exact .file (List.mem_cons_of_mem _ hp) hf he
  | directory hd => exact .directory hd

theorem Cleared.obstructs {e : FileError} (h : top.Cleared folders answer) (he : answer = .error e)
    (place : List String) : top.Obstructs folders place e := by
  induction h with
  | done => cases he
  | pass hp _ ih => exact (ih he).cons _
  | tooLong hlong =>
    cases he
    exact .tooLong (.inl List.mem_cons_self) hlong
  | file hshort hf =>
    cases he
    refine .file List.mem_cons_self (standing?_eq_file_iff.mp hf) ?_
    split_ifs
    · exact .inl rfl
    · exact .inr rfl

theorem Filed.obstructs {e : FileError} (h : top.Filed place answer) (he : answer = .error e)
    (folders : List (List String)) : top.Obstructs folders place e := by
  cases h with
  | tooLong hlong =>
    cases he
    exact .tooLong (.inr rfl) hlong
  | directory hshort hd =>
    cases he
    obtain ⟨es, hes⟩ := exists_directory_of_standing? hd
    exact .directory hes
  | file hshort hf => cases he

/-- Where the way is clear and a file stands at its end, nothing is in the way. -/
theorem not_obstructs (hfolders : ∀ p ∈ folders, top.Passes p) (hshort : isTooLong place = false)
    {content : ByteArray} (hfile : top.find? place = some (.file content)) (e : FileError) :
    ¬top.Obstructs folders place e := by
  rintro (⟨hp, hlong⟩ | ⟨hp, hf, -⟩ | hd)
  · have hshorts : isTooLong _ = false := hp.elim (fun hp => (hfolders _ hp).1) (· ▸ hshort)
    rw [hshorts] at hlong
    cases hlong
  · have hstands := (hfolders _ hp).2
    rw [standing?_eq_file_iff.mpr hf] at hstands
    cases hstands
  · rw [hfile] at hd
    cases hd

end Entry

namespace Output

open ViewWiring.Path (destination)

variable {root : String} {top top' : Entry} {a : Artifact}

/-- What is left by a write that succeeds: the content is read on the path, every file in another
place is as it was, the tree is as it was iff the content was read on the path before, and nothing
is in the way. -/
structure Stored (path : String) (content : ByteArray) (top : Entry) (outcome : WriteOutcome)
    (top' : Entry) : Prop where
  read : top'.read (Path.places path) = .ok content
  file : top'.find? (destination path) = some (.file content)
  others : ∀ place, place ≠ destination path → top.SameFile top' place
  untouched_iff : top' = top ↔ top.read (Path.places path) = .ok content
  unchanged_iff : outcome = .unchanged ↔ top.read (Path.places path) = .ok content
  clear : ∀ e, ¬top'.Obstructs (Path.folderPlaces path) (destination path) e

/-- What is left by a write that fails: every file is as it was, and what is in the way stands
there for the reason that the failure gives. -/
structure Refused (path : String) (top : Entry) (f : WriteFailure) (top' : Entry) : Prop where
  path_eq : f.path = path
  files : ∀ place, top.SameFile top' place
  obstructed : ∃ e, f.reason = e.message ∧
    top'.Obstructs (Path.folderPlaces path) (destination path) e

namespace Settled

variable {answer : Except WriteFailure Unit}

theorem obstructs (h : Settled root top ⟨a, answer⟩) (ha : a.WellNamed) {f : WriteFailure}
    (hf : answer = .error f) :
    ∃ e, f = failure root a e ∧
      top.Obstructs (Path.folderPlaces (path root a)) (destination (path root a)) e := by
  rw [destination_path root ha]
  cases h with
  | folders h =>
    cases hf
    exact ⟨_, rfl, h.obstructs rfl _⟩
  | @file _ answer _ hfile =>
    cases answer with
    | ok => cases hf
    | error e =>
      cases hf
      exact ⟨e, rfl, hfile.obstructs rfl _⟩

theorem passes (h : Settled root top ⟨a, answer⟩) (hok : answer = .ok ()) :
    (∀ place ∈ Path.folderPlaces (path root a), top.Passes place) ∧
      Entry.isTooLong (filePlace root a) = false := by
  cases h with
  | folders h => cases hok
  | file hcleared hfile =>
    cases hfile with
    | tooLong hlong => cases hok
    | directory hshort hd => cases hok
    | file hshort hf => exact ⟨hcleared.answer_eq_ok_iff.mp rfl, hshort⟩

end Settled

theorem outcome_eq_unchanged_iff {outcome : WriteOutcome}
    (h : write root a top = (.ok outcome, top')) :
    outcome = .unchanged ↔ holds top (Path.places (path root a)) a.source.toUTF8 = true := by
  by_cases hholds : holds top (Path.places (path root a)) a.source.toUTF8 = true
  · rw [write_of_holds hholds] at h
    cases h
    exact iff_of_true rfl hholds
  · refine iff_of_false ?_ hholds
    rintro rfl
    unfold write at h
    simp only [if_neg hholds] at h
    split at h
    · cases h
    · split at h <;> cases h

/-- A write is settled in the tree that it leaves, and no file changes but the one that it puts in
its place. -/
theorem write_settles (ha : a.WellNamed) (htop : top.standing? [] = some .directory)
    {answer : Except WriteFailure WriteOutcome} (h : write root a top = (answer, top')) :
    let o : Offer := ⟨a, answer.map fun _ => ()⟩
    Settled root top' o ∧ top'.standing? [] = some .directory ∧
      (∀ place content, o.written? root place = some content →
        top'.standing? place = some (.file content)) ∧
      ∀ place, o.written? root place = none → top.SameFile top' place := by
  intro o
  obtain ⟨answer', left, hrun, hsettled, hgrows, made, -, hadds, hstands⟩ :=
    writer_settles root ha htop
  rw [run_writer_of_write_eq h] at hrun
  cases hrun
  refine ⟨hsettled, hgrows.directory htop, ?_, ?_⟩
  · intro place content hwritten
    rw [hstands, hwritten]
    rfl
  · intro place hwritten content
    rw [← hadds.sameFile place content, ← Entry.standing?_eq_file_iff,
      ← Entry.standing?_eq_file_iff, hstands, hwritten]
    rfl

theorem stored_of_write (ha : a.WellNamed) (htop : top.standing? [] = some .directory)
    {outcome : WriteOutcome} (h : write root a top = (.ok outcome, top')) :
    Stored (path root a) a.source.toUTF8 top outcome top' := by
  obtain ⟨hsettled, htop', hwritten, hkept⟩ := write_settles ha htop h
  have hfile := hwritten (filePlace root a) a.source.toUTF8 (by simp [Offer.written?, Except.map])
  obtain ⟨hpass, hshort⟩ := hsettled.passes rfl
  have hread := read_path_of_passes ha htop' hpass hshort hfile
  rw [← destination_path root ha] at hfile hshort
  have hfind := Entry.standing?_eq_file_iff.mp hfile
  refine ⟨hread, hfind, ?_, ⟨?_, ?_⟩, ?_, Entry.not_obstructs hpass hshort hfind⟩
  · intro place hne
    rw [destination_path root ha] at hne
    exact hkept place (by simp [Offer.written?, Except.map, hne])
  · exact fun he => he ▸ hread
  · intro hheld
    rw [write_of_holds (holds_eq_true_iff.mpr hheld)] at h
    exact (congrArg Prod.snd h).symm
  · rw [outcome_eq_unchanged_iff h, holds_eq_true_iff]

theorem refused_of_write (ha : a.WellNamed) (htop : top.standing? [] = some .directory)
    {f : WriteFailure} (h : write root a top = (.error f, top')) :
    Refused (path root a) top f top' := by
  obtain ⟨hsettled, -, -, hkept⟩ := write_settles ha htop h
  obtain ⟨e, rfl, hobstructs⟩ := hsettled.obstructs ha rfl
  exact ⟨rfl, fun place => hkept place rfl, e, rfl, hobstructs⟩

/-- A write into a tree of files, whose top is a directory, either succeeds, and then the file on
the path of the artifact holds its source and no other file changes, or fails with that path, and
then no file changes at all. A write that succeeds leaves the tree untouched iff the file held the
source before. -/
theorem write_all_or_nothing (root : String) (es : List (String × Entry)) {a : Artifact}
    (hfolders : ∀ folder ∈ a.folders, isIdentifier folder = true)
    (hclass : isIdentifier a.className = true) :
    (∃ outcome top', write root a (.directory es) = (.ok outcome, top') ∧
      Stored (path root a) a.source.toUTF8 (.directory es) outcome top') ∨
    ∃ f top', write root a (.directory es) = (.error f, top') ∧
      Refused (path root a) (.directory es) f top' := by
  obtain ⟨b, hb, hpath, hsource⟩ := a.exists_wellNamed hfolders hclass
  have hroot : path root b = path root a := congrArg (Path.join root) hpath
  have hwrite : write root b (.directory es) = write root a (.directory es) := by
    unfold write failure
    rw [hroot, hsource]
  rw [← hwrite, ← hroot, ← hsource]
  cases h : write root b (.directory es) with
  | mk answer top' =>
    cases answer with
    | ok outcome => exact .inl ⟨outcome, top', rfl, stored_of_write hb rfl h⟩
    | error f => exact .inr ⟨f, top', rfl, refused_of_write hb rfl h⟩

theorem write_all_or_nothing_behind_file :
    let top : Entry := .directory [("out", .directory [("b", .file "text".toUTF8),
      ("a", .directory [("Main_.java", .file "old".toUTF8)])])]
    let main : Artifact := ⟨"a", "Main_", "new"⟩
    let hidden : Artifact := ⟨"b..c", "Main_", "new"⟩
    let f : WriteFailure := ⟨"out/b/c/Main_.java", "Not a directory (os error 20)"⟩
    (∀ a ∈ [main, hidden], (∀ folder ∈ a.folders, isIdentifier folder = true) ∧
      isIdentifier a.className = true) ∧
    (∃ top', write "out" main top = (.ok .written, top') ∧
      Stored "out/a/Main_.java" "new".toUTF8 top .written top') ∧
    ∃ top', write "out" hidden top = (.error f, top') ∧
      Refused "out/b/c/Main_.java" top f top' := by
  intro top main hidden f
  have hnamed : ∀ a ∈ [main, hidden], (∀ folder ∈ a.folders, isIdentifier folder = true) ∧
      isIdentifier a.className = true := by decide +kernel
  obtain ⟨hfolders, hclass⟩ := hnamed main (by simp)
  obtain ⟨hfolders', hclass'⟩ := hnamed hidden (by simp)
  have hwritten : (write "out" main top).1 = .ok .written := by decide +kernel
  have hrefused : (write "out" hidden top).1 = .error f := by decide +kernel
  have hmain : path "out" main = "out/a/Main_.java" := by decide +kernel
  have hhidden : path "out" hidden = "out/b/c/Main_.java" := by decide +kernel
  refine ⟨hnamed, ?_, ?_⟩
  · obtain ⟨outcome, top', hw, h⟩ | ⟨g, top', hw, -⟩ :=
      write_all_or_nothing "out" _ hfolders hclass
    · rw [hw] at hwritten
      cases hwritten
      exact ⟨top', hw, hmain ▸ h⟩
    · rw [hw] at hwritten
      cases hwritten
  · obtain ⟨outcome, top', hw, -⟩ | ⟨g, top', hw, h⟩ :=
      write_all_or_nothing "out" _ hfolders' hclass'
    · rw [hw] at hrefused
      cases hrefused
    · rw [hw] at hrefused
      cases hrefused
      exact ⟨top', hw, hhidden ▸ h⟩

end Output

end ViewWiring
