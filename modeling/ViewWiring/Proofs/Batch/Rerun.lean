import ViewWiring.Proofs.Batch.Rehearsal
import ViewWiring.Proofs.Files.Settled

namespace ViewWiring

namespace Output

/-- What the last of the offers that put anything in a place put there. -/
def lastWritten? (root : String) (offers : List Offer) (place : List String) : Option ByteArray :=
  offers.reverse.findSome? fun o => o.written? root place

theorem lastWritten?_append (root : String) (offers more : List Offer) (place : List String) :
    lastWritten? root (offers ++ more) place =
      (lastWritten? root more place).or (lastWritten? root offers place) := by
  rw [lastWritten?, List.reverse_append, List.findSome?_append]
  rfl

variable {root : String} {top : Entry} {a : Artifact}

/-- What a run of offers leaves behind: all of them are settled, what was written last stands in its
place, and what stood in a place where nothing was written stands there still. -/
structure Leaves (root : String) (top : Entry) (offers : List Offer) (top' : Entry) : Prop where
  settled : ∀ o ∈ offers, Settled root top' o
  grows : top.Grows top'
  written : ∀ {place content}, lastWritten? root offers place = some content →
    top'.standing? place = some (.file content)
  kept : ∀ {place}, lastWritten? root offers place = none → top.standing? place ≠ none →
    top'.standing? place = top.standing? place

namespace Leaves

variable {top' top'' : Entry} {offers more : List Offer}

theorem nil (root : String) (top : Entry) : Leaves root top [] top where
  settled := by simp
  grows := .refl top
  written := nofun
  kept _ _ := rfl

theorem append (h : Leaves root top offers top') (h' : Leaves root top' more top'') :
    Leaves root top (offers ++ more) top'' where
  settled := List.forall_mem_append.mpr ⟨fun o ho => (h.settled o ho).mono h'.grows, h'.settled⟩
  grows := h.grows.trans h'.grows
  written := by
    intro place content hlast
    rw [lastWritten?_append] at hlast
    rcases Option.or_eq_some_iff.mp hlast with hmore | ⟨hmore, hoffers⟩
    · exact h'.written hmore
    · have hfile := h.written hoffers
      rw [h'.kept hmore (by simp [hfile]), hfile]
  kept := by
    intro place hlast hstands
    rw [lastWritten?_append, Option.or_eq_none_iff] at hlast
    obtain ⟨hmore, hoffers⟩ := hlast
    have hkept := h.kept hoffers hstands
    rw [h'.kept hmore (hkept ▸ hstands), hkept]

end Leaves

end Output

namespace Manifest

variable {m : Manifest} {d : Declarations}

end Manifest

end ViewWiring
