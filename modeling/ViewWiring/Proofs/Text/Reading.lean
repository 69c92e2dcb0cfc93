import ViewWiring.Proofs.Text.Layout
import ViewWiring.Proofs.Text.PrefixCodes

namespace ViewWiring

section Words

variable {p : Char → Bool} {word rest : List Char}

theorem takeWhile_word (hword : ∀ c ∈ word, p c = true) (hrest : Begins (p · = false) rest) :
    (word ++ rest).takeWhile p = word := by
  obtain ⟨c, cs, rfl, hc⟩ := hrest
  rw [List.takeWhile_append_of_pos hword, List.takeWhile_cons_of_neg (by simp [hc]),
    List.append_nil]

theorem dropWhile_word (hword : ∀ c ∈ word, p c = true) (hrest : Begins (p · = false) rest) :
    (word ++ rest).dropWhile p = rest := by
  obtain ⟨c, cs, rfl, hc⟩ := hrest
  rw [List.dropWhile_append_of_pos hword, List.dropWhile_cons_of_neg (by simp [hc])]

end Words

section Blocks

variable {indent text : List Char} {depth : Nat}

/-- A text that begins with a brace that closes, on a line of the given depth. -/
def Closes (indent : List Char) (depth : Nat) (text : List Char) : Prop :=
  ∃ rest, text = copies indent depth ++ '}' :: rest

/-- A text that begins with another line of the given depth. -/
def OpensLine (indent : List Char) (depth : Nat) (text : List Char) : Prop :=
  ∃ rest, text = copies indent depth ++ rest ∧ Begins StartsLine rest

variable (hindent : ∀ c ∈ indent, c = ' ' ∨ c = '\t')

include hindent

theorem copies_append_ne (rest : List Char) {c : Char} (hc : c ≠ '\n') :
    ¬ Begins (· = '\n') (copies indent depth ++ c :: rest) := by
  rintro ⟨d, ds, heq, rfl⟩
  obtain ⟨hnil, hcons⟩ | ⟨cs, hcopies, -⟩ := List.append_eq_cons_iff.mp heq
  · exact hc (List.cons.inj hcons).1
  · exact notMem_copies hindent depth (c := '\n') (by decide) (by decide)
      (hcopies ▸ List.mem_cons_self)

theorem Closes.not_lineEnd (h : Closes indent depth text) : ¬ Begins (· = '\n') text := by
  obtain ⟨rest, rfl⟩ := h
  exact copies_append_ne hindent rest (by decide)

theorem OpensLine.not_lineEnd (h : OpensLine indent depth text) : ¬ Begins (· = '\n') text := by
  obtain ⟨rest, rfl, c, cs, rfl, hc⟩ := h
  exact copies_append_ne hindent cs hc.2.2.1

/-- A line inside of a block is not the one that closes it, also if the indent is empty. -/
theorem OpensLine.not_closes (h : OpensLine indent (depth + 1) text) :
    ¬ Closes indent depth text := by
  rintro ⟨rest, hrest⟩
  obtain ⟨line, hline, c, cs, rfl, hc⟩ := h
  have hsucc : copies indent (depth + 1) = copies indent depth ++ indent := by
    rw [copies, List.replicate_succ', List.flatten_append, List.flatten_singleton]
    rfl
  rw [hline, hsucc, List.append_assoc, List.append_cancel_left_eq] at hrest
  obtain ⟨-, hcons⟩ | ⟨ds, hblank, -⟩ := List.append_eq_cons_iff.mp hrest
  · exact hc.2.2.2 (List.cons.inj hcons).1
  · have hbrace := hindent '}' (hblank ▸ List.mem_cons_self)
    revert hbrace
    decide

end Blocks

/-- Two texts of which a reader takes one for the other only if they say the same, as long as what
comes next is of some kind: a longer text that begins with both goes on alike behind either. -/
def ReadAlike (next : List Char → Prop) (x y : List Char) (same : Prop) : Prop :=
  ∀ u v, next u → next v → x ++ u = y ++ v → same ∧ u = v

/-- No condition on what comes next: the text shows by itself where it ends. -/
def Anything (_ : List Char) : Prop := True

namespace ReadAlike

variable {next next' : List Char → Prop} {x y x' y' : List Char} {same same' : Prop}

theorem refl (x : List Char) : ReadAlike next x x True :=
  fun _ _ _ _ h => ⟨trivial, List.append_cancel_left h⟩

theorem imp (h : ReadAlike next x y same) (hsame : same → same') : ReadAlike next x y same' :=
  fun u v hu hv huv => (h u v hu hv huv).imp_left hsame

theorem of_next (h : ReadAlike next x y same) (hnext : ∀ u, next' u → next u) :
    ReadAlike next' x y same :=
  fun u v hu hv => h u v (hnext u hu) (hnext v hv)

/-- One after the other; the second text has to be one that can come next to the first. -/
theorem append (h : ReadAlike next x y same) (h' : ReadAlike next' x' y' same')
    (hx : ∀ u, next' u → next (x' ++ u)) (hy : ∀ u, next' u → next (y' ++ u)) :
    ReadAlike next' (x ++ x') (y ++ y') (same ∧ same') := by
  intro u v hu hv huv
  rw [List.append_assoc, List.append_assoc] at huv
  obtain ⟨hsame, hrest⟩ := h _ _ (hx u hu) (hy v hv) huv
  obtain ⟨hsame', hend⟩ := h' u v hu hv hrest
  exact ⟨⟨hsame, hsame'⟩, hend⟩

theorem behind (start : List Char) (h : ReadAlike next x y same) :
    ReadAlike next (start ++ x) (start ++ y) same := by
  intro u v hu hv huv
  rw [List.append_assoc, List.append_assoc] at huv
  exact h u v hu hv (List.append_cancel_left huv)

theorem before (stop : List Char) (h : ReadAlike next x y same)
    (hstop : ∀ u, next' u → next (stop ++ u)) :
    ReadAlike next' (x ++ stop) (y ++ stop) same :=
  (h.append (refl stop) hstop hstop).imp And.left

theorem closed (stop : List Char) (h : ReadAlike next x y same) (hstop : ∀ u, next (stop ++ u)) :
    ReadAlike Anything (x ++ stop) (y ++ stop) same :=
  h.before stop fun u _ => hstop u

theorem andThen (h : ReadAlike Anything x y same) (h' : ReadAlike next' x' y' same') :
    ReadAlike next' (x ++ x') (y ++ y') (same ∧ same') :=
  h.append h' (fun _ _ => trivial) fun _ _ => trivial

/-- A word is read to its end. -/
theorem words {p : Char → Bool} (hx : ∀ c ∈ x, p c = true) (hy : ∀ c ∈ y, p c = true) :
    ReadAlike (Begins (p · = false)) x y (x = y) := by
  intro u v hu hv huv
  have hwords := congrArg (List.takeWhile p) huv
  have hrests := congrArg (List.dropWhile p) huv
  rw [takeWhile_word hx hu, takeWhile_word hy hv] at hwords
  rw [dropWhile_word hx hu, dropWhile_word hy hv] at hrests
  exact ⟨hwords, hrests⟩

section Lists

variable {α β : Type} {f : α → List Char} {g : α → β} {stop : List Char → Prop} {sep : List Char}
  {as bs : List α}

theorem of_map_id (h : ReadAlike next x y (as.map id = bs.map id)) :
    ReadAlike next x y (as = bs) := by
  rwa [List.map_id, List.map_id] at h

/-- A list is read element by element until something comes that no element begins with. -/
theorem flatMap (hread : ∀ a ∈ as, ∀ b ∈ bs, ReadAlike next (f a) (f b) (g a = g b))
    (hnext : ∀ a ∈ as ++ bs, ∀ u, next (f a ++ u)) (hend : ∀ u, stop u → next u)
    (hstop : ∀ a ∈ as ++ bs, ∀ u, ¬ stop (f a ++ u)) :
    ReadAlike stop (as.flatMap f) (bs.flatMap f) (as.map g = bs.map g) := by
  induction as generalizing bs with
  | nil =>
    intro u v hu hv huv
    cases bs with
    | nil => exact ⟨rfl, huv⟩
    | cons b bs =>
      rw [List.flatMap_cons, List.append_assoc] at huv
      rw [List.flatMap_nil, List.nil_append] at huv
      exact absurd (huv ▸ hu) (hstop b List.mem_cons_self _)
  | cons a as ih =>
    intro u v hu hv huv
    have hmore {cs : List α} (hcs : ∀ c ∈ cs, c ∈ (a :: as) ++ bs) {w : List Char} (hw : stop w) :
        next (cs.flatMap f ++ w) := by
      cases cs with
      | nil => exact hend w hw
      | cons c cs =>
        rw [List.flatMap_cons, List.append_assoc]
        exact hnext c (hcs c List.mem_cons_self) _
    cases bs with
    | nil =>
      rw [List.flatMap_cons, List.append_assoc] at huv
      rw [List.flatMap_nil, List.nil_append] at huv
      exact absurd (huv ▸ hv) (hstop a List.mem_cons_self _)
    | cons b bs =>
      rw [List.flatMap_cons, List.append_assoc, List.flatMap_cons, List.append_assoc] at huv
      obtain ⟨hfirst, hrest⟩ := hread a List.mem_cons_self b List.mem_cons_self _ _
        (hmore (fun c hc => List.mem_append_left _ (List.mem_cons_of_mem a hc)) hu)
        (hmore (fun c hc => List.mem_append_right _ (List.mem_cons_of_mem b hc)) hv) huv
      have hmem {c : α} (hc : c ∈ as ++ bs) : c ∈ (a :: as) ++ (b :: bs) := by
        rcases List.mem_append.mp hc with hc | hc
        · exact List.mem_append_left _ (List.mem_cons_of_mem a hc)
        · exact List.mem_append_right _ (List.mem_cons_of_mem b hc)
      obtain ⟨hlater, hend'⟩ := ih
        (fun a' ha' b' hb' => hread a' (List.mem_cons_of_mem a ha') b' (List.mem_cons_of_mem b hb'))
        (fun c hc => hnext c (hmem hc)) (fun c hc => hstop c (hmem hc)) u v hu hv hrest
      exact ⟨by rw [List.map_cons, List.map_cons, hfirst, hlater], hend'⟩

theorem flatMap_of_closed
    (hread : ∀ a ∈ as, ∀ b ∈ bs, ReadAlike Anything (f a) (f b) (g a = g b))
    (hstop : ∀ a ∈ as ++ bs, ∀ u, ¬ stop (f a ++ u)) :
    ReadAlike stop (as.flatMap f) (bs.flatMap f) (as.map g = bs.map g) :=
  flatMap hread (fun _ _ _ => trivial) (fun _ _ => trivial) hstop

/-- The same with a text between the elements. -/
theorem intercalate (hread : ∀ a ∈ as, ∀ b ∈ bs, ReadAlike next (f a) (f b) (g a = g b))
    (hsep : ∀ u, next (sep ++ u)) (hend : ∀ u, stop u → next u)
    (hstop : ∀ a ∈ as ++ bs, ∀ u, ¬ stop (f a ++ u)) (hmore : ∀ u, ¬ stop (sep ++ u)) :
    ReadAlike stop (sep.intercalate (as.map f)) (sep.intercalate (bs.map f))
      (as.map g = bs.map g) := by
  cases as with
  | nil =>
    intro u v hu hv huv
    cases bs with
    | nil => exact ⟨rfl, huv⟩
    | cons b bs =>
      rw [List.map_cons, intercalate_cons, List.append_assoc] at huv
      rw [List.map_nil, List.intercalate_nil, List.nil_append] at huv
      exact absurd (huv ▸ hu) (hstop b List.mem_cons_self _)
  | cons a as =>
    cases bs with
    | nil =>
      intro u v hu hv huv
      rw [List.map_cons, intercalate_cons, List.append_assoc] at huv
      rw [List.map_nil, List.intercalate_nil, List.nil_append] at huv
      exact absurd (huv ▸ hv) (hstop a List.mem_cons_self _)
    | cons b bs =>
      have hrest : ReadAlike stop (as.flatMap fun c => sep ++ f c) (bs.flatMap fun c => sep ++ f c)
          (as.map g = bs.map g) := by
        refine flatMap (fun a' ha' b' hb' => (hread a' (List.mem_cons_of_mem a ha') b'
          (List.mem_cons_of_mem b hb')).behind sep) (fun c _ u => ?_) hend (fun c _ u => ?_)
        · rw [List.append_assoc]
          exact hsep _
        · rw [List.append_assoc]
          exact hmore _
      have hlater {cs : List α} {w : List Char} (hw : stop w) :
          next ((cs.flatMap fun c => sep ++ f c) ++ w) := by
        cases cs with
        | nil => exact hend w hw
        | cons c cs =>
          rw [List.flatMap_cons, List.append_assoc, List.append_assoc]
          exact hsep _
      have hboth := (hread a List.mem_cons_self b List.mem_cons_self).append hrest
        (fun _ => hlater) (fun _ => hlater)
      rw [List.map_cons, List.map_cons, intercalate_cons, intercalate_cons, List.flatMap_map,
        List.flatMap_map]
      exact hboth.imp fun h => by rw [List.map_cons, List.map_cons, h.1, h.2]

end Lists

end ReadAlike

end ViewWiring
