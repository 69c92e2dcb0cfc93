import ViewWiring.Proofs.Text.PrefixCodes
import ViewWiring.Text.JsonString

namespace ViewWiring.JsonString

/-- The characters that are not written as they are. -/
def escaped : List Char := '"' :: '\\' :: (List.range 0x20).map Char.ofNat

theorem mem_escaped_of_toNat_lt {c : Char} (h : c.toNat < 0x20) : c ∈ escaped := by
  have hc : c ∈ (List.range 0x20).map Char.ofNat :=
    List.mem_map.mpr ⟨c.toNat, List.mem_range.mpr h, Char.ofNat_toNat c⟩
  exact List.mem_cons_of_mem _ (List.mem_cons_of_mem _ hc)

theorem escape_of_notMem {c : Char} (h : c ∉ escaped) : escape c = [c] := by
  unfold escape
  split
  case h_8 => rw [if_neg (mt mem_escaped_of_toNat_lt h)]
  all_goals exact absurd (by decide) h

/-- The escapes begin with a backslash, and only they do. -/
theorem head?_escape (c : Char) :
    (escape c).head? = if c ∈ escaped then some '\\' else some c := by
  split_ifs with h
  · have hall : (escaped.all fun c => (escape c).head? == some '\\') = true := by decide
    exact beq_iff_eq.mp (List.all_eq_true.mp hall c h)
  · rw [escape_of_notMem h, List.head?_singleton]

theorem isPrefixCode_escape : IsPrefixCode escape := by
  rintro c d ⟨x, hx⟩
  have hhead : (escape c).head? = (escape d).head? := by
    rw [← hx, List.head?_append, head?_escape]
    split_ifs <;> rfl
  rw [head?_escape, head?_escape] at hhead
  have hbackslash : '\\' ∈ escaped := by decide
  split_ifs at hhead with hc hd hd
  · have hall : (escaped.all fun c => escaped.all fun d =>
        decide (escape c <+: escape d → c = d)) = true := by
      decide +kernel
    have hcd := List.all_eq_true.mp (List.all_eq_true.mp hall c hc) d hd
    exact of_decide_eq_true hcd ⟨x, hx⟩
  · exact absurd (Option.some.inj hhead ▸ hbackslash) hd
  · exact absurd (Option.some.inj hhead ▸ hbackslash) hc
  · exact Option.some.inj hhead

theorem escape_append_ne_quote (c : Char) (x y : List Char) : escape c ++ x ≠ '"' :: y := by
  intro h
  have hhead := congrArg List.head? h
  have hquote : '"' ∈ escaped := by decide
  rw [List.head?_append, head?_escape, List.head?_cons] at hhead
  split_ifs at hhead with hc
  · exact absurd (Option.some.inj hhead) (by decide)
  · exact hc (Option.some.inj hhead ▸ hquote)

theorem toList_encode (text : String) :
    (encode text).toList = ['"'] ++ (text.toList.flatMap escape ++ ['"']) :=
  String.toList_ofList

/-- A quoted string tells its text and where it ends. -/
theorem isPrefixCode_encode : IsPrefixCode fun text => (encode text).toList := by
  simp only [toList_encode]
  have htext : Function.Injective String.toList := fun _ _ h => String.toList_inj.mp h
  exact ((isPrefixCode_escape.closed escape_append_ne_quote).comp htext).behind ['"']

/-- No control character is left in a quoted string. -/
theorem toNat_of_mem_encode (text : String) : ∀ c ∈ (encode text).toList, 0x20 ≤ c.toNat := by
  have hquote : ∀ c ∈ ['"'], 0x20 ≤ c.toNat := List.forall_mem_singleton.mpr (by decide)
  rw [toList_encode, List.forall_mem_append, List.forall_mem_append]
  refine ⟨hquote, ?_, hquote⟩
  intro c hc
  obtain ⟨d, -, hcd⟩ := List.mem_flatMap.mp hc
  by_cases hd : d ∈ escaped
  · have hall : (escaped.all fun d => (escape d).all fun c => decide (0x20 ≤ c.toNat)) = true := by
      decide +kernel
    exact of_decide_eq_true (List.all_eq_true.mp (List.all_eq_true.mp hall d hd) c hcd)
  · rw [escape_of_notMem hd, List.mem_singleton] at hcd
    rw [hcd]
    exact Nat.not_lt.mp (mt mem_escaped_of_toNat_lt hd)

end ViewWiring.JsonString
