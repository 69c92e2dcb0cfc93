import ViewWiring.Identifier

namespace ViewWiring

/-- The text before and after the last dot, if there is one. -/
def splitAtLastDot : List Char → Option (List Char × List Char)
  | [] => none
  | c :: cs =>
    match splitAtLastDot cs with
    | some (before, after) => some (c :: before, after)
    | none => if c = '.' then some ([], cs) else none

theorem splitAtLastDot_eq_none_iff {cs : List Char} : splitAtLastDot cs = none ↔ '.' ∉ cs := by
  induction cs with
  | nil => simp [splitAtLastDot]
  | cons c cs ih => grind [splitAtLastDot]

theorem eq_append_of_splitAtLastDot {cs before after : List Char}
    (h : splitAtLastDot cs = some (before, after)) : cs = before ++ '.' :: after ∧ '.' ∉ after := by
  fun_induction splitAtLastDot cs generalizing before with
  | case1 => simp at h
  | case2 c cs a b hs ih => grind
  | case3 cs hs => grind [splitAtLastDot_eq_none_iff]
  | case4 => simp at h

theorem splitAtLastDot_append {before after : List Char} (h : '.' ∉ after) :
    splitAtLastDot (before ++ '.' :: after) = some (before, after) := by
  induction before with
  | nil => simp [splitAtLastDot, splitAtLastDot_eq_none_iff.mpr h]
  | cons b bs ih => simp [splitAtLastDot, ih]

/-- The dotted name of a class. -/
structure TypeName where
  text : String
  deriving DecidableEq, Inhabited

namespace TypeName

/-- All before the last dot; the unnamed package is empty. -/
def package (name : TypeName) : String :=
  match splitAtLastDot name.text.toList with
  | some (before, _) => String.ofList before
  | none => ""

/-- All after the last dot. -/
def simpleName (name : TypeName) : String :=
  match splitAtLastDot name.text.toList with
  | some (_, after) => String.ofList after
  | none => name.text

/-- What is left of `name` without a leading `package` and dot, or its last part if it lies
elsewhere; the two differ for classes nested in others. -/
def relativeTo (name : TypeName) (package : String) : String :=
  if package.isEmpty then name.text
  else if (package.toList ++ ['.']).isPrefixOf name.text.toList then
    String.ofList (name.text.toList.drop (package.toList.length + 1))
  else name.simpleName

theorem text_eq_package_simpleName (name : TypeName) (h : '.' ∈ name.text.toList) :
    name.text = name.package ++ "." ++ name.simpleName := by
  cases hs : splitAtLastDot name.text.toList with
  | none => exact absurd h (splitAtLastDot_eq_none_iff.mp hs)
  | some p =>
    obtain ⟨before, after⟩ := p
    rw [← String.toList_inj, (eq_append_of_splitAtLastDot hs).1]
    simp [package, simpleName, hs]

theorem dot_notMem_simpleName (name : TypeName) : '.' ∉ name.simpleName.toList := by
  cases hs : splitAtLastDot name.text.toList with
  | none => simpa [simpleName, hs] using splitAtLastDot_eq_none_iff.mp hs
  | some p => simpa [simpleName, hs] using (eq_append_of_splitAtLastDot hs).2

end TypeName

end ViewWiring
