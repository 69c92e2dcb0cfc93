import Mathlib.Data.List.Basic

namespace ViewWiring

/-- A text without its empty lines; `fresh` tells that it begins at the start of a line. -/
def dropEmptyLines (fresh : Bool) : List Char → List Char
  | [] => []
  | c :: cs =>
    if c = '\n' then
      if fresh then dropEmptyLines true cs else c :: dropEmptyLines true cs
    else c :: dropEmptyLines false cs

def withoutEmptyLines (text : String) : String := String.ofList (dropEmptyLines true text.toList)

/-- Whether a line begins behind a text. -/
def freshAfter (fresh : Bool) (text : List Char) : Bool :=
  match text.getLast? with
  | none => fresh
  | some c => c == '\n'

theorem freshAfter_cons (fresh : Bool) (c : Char) (cs : List Char) :
    freshAfter fresh (c :: cs) = freshAfter (c == '\n') cs := by
  cases cs with
  | nil => rfl
  | cons d ds => rw [freshAfter, freshAfter, List.getLast?_cons_cons]; rfl

theorem freshAfter_append (fresh : Bool) (x y : List Char) :
    freshAfter fresh (x ++ y) = freshAfter (freshAfter fresh x) y := by
  induction x generalizing fresh with
  | nil => rfl
  | cons c x ih => rw [List.cons_append, freshAfter_cons, ih, freshAfter_cons]

theorem dropEmptyLines_append (fresh : Bool) (x y : List Char) :
    dropEmptyLines fresh (x ++ y) =
      dropEmptyLines fresh x ++ dropEmptyLines (freshAfter fresh x) y := by
  induction x generalizing fresh with
  | nil => rfl
  | cons c x ih =>
    rw [List.cons_append, dropEmptyLines, dropEmptyLines, freshAfter_cons]
    by_cases hc : c = '\n'
    · cases fresh <;> simp [hc, ih]
    · have hb : (c == '\n') = false := beq_false_of_ne hc
      simp [hc, hb, ih]

/-- Texts that differ by empty lines only, wherever they stand. -/
def SameLines (x y : String) : Prop :=
  ∀ fresh, dropEmptyLines fresh x.toList = dropEmptyLines fresh y.toList ∧
    freshAfter fresh x.toList = freshAfter fresh y.toList

namespace SameLines

theorem refl (x : String) : SameLines x x := fun _ => ⟨rfl, rfl⟩

theorem trans {x y z : String} (h : SameLines x y) (h' : SameLines y z) : SameLines x z :=
  fun fresh => ⟨(h fresh).1.trans (h' fresh).1, (h fresh).2.trans (h' fresh).2⟩

theorem append {x y x' y' : String} (h : SameLines x y) (h' : SameLines x' y') :
    SameLines (x ++ x') (y ++ y') := by
  intro fresh
  obtain ⟨hdrop, hfresh⟩ := h fresh
  rw [String.toList_append, String.toList_append, dropEmptyLines_append, dropEmptyLines_append,
    freshAfter_append, freshAfter_append, hdrop, hfresh]
  exact ⟨by rw [(h' _).1], (h' _).2⟩

/-- Behind the end of a line another line end makes an empty line. -/
theorem lineEnd {x : String} (h : x.toList.getLast? = some '\n') : SameLines x (x ++ "\n") := by
  intro fresh
  have hfresh : freshAfter fresh x.toList = true := by rw [freshAfter, h]; rfl
  rw [String.toList_append, dropEmptyLines_append, freshAfter_append, hfresh]
  exact ⟨(List.append_nil _).symm, rfl⟩

theorem withoutEmptyLines_eq {x y : String} (h : SameLines x y) :
    withoutEmptyLines x = withoutEmptyLines y := by
  rw [withoutEmptyLines, withoutEmptyLines, (h true).1]

end SameLines

end ViewWiring
