import Mathlib.Data.List.Basic

namespace ViewWiring

/-- A text that has a first character, and one of a kind. -/
def Begins (p : Char → Prop) (text : List Char) : Prop := ∃ c cs, text = c :: cs ∧ p c

namespace Begins

variable {p q : Char → Prop} {text : List Char}

theorem append (h : Begins p text) (more : List Char) : Begins p (text ++ more) := by
  obtain ⟨c, cs, rfl, hc⟩ := h
  exact ⟨c, cs ++ more, rfl, hc⟩

theorem imp (h : Begins p text) (hpq : ∀ c, p c → q c) : Begins q text := by
  obtain ⟨c, cs, rfl, hc⟩ := h
  exact ⟨c, cs, rfl, hpq c hc⟩

end Begins

/-- What can come next to the indent of a line: no other blank, and no brace that closes. -/
def StartsLine (c : Char) : Prop := c ≠ ' ' ∧ c ≠ '\t' ∧ c ≠ '\n' ∧ c ≠ '}'

instance : DecidablePred StartsLine := fun c =>
  inferInstanceAs (Decidable (c ≠ ' ' ∧ c ≠ '\t' ∧ c ≠ '\n' ∧ c ≠ '}'))

/-- Text that stays in its line and opens and closes nothing. -/
def IsFlat (text : String) : Prop := ∀ c ∈ text.toList, c ≠ '{' ∧ c ≠ '}' ∧ c ≠ '\n'

instance : DecidablePred IsFlat := fun text =>
  List.decidableBAll (fun c => c ≠ '{' ∧ c ≠ '}' ∧ c ≠ '\n') text.toList

namespace IsFlat

variable {text : String}

theorem append {text' : String} (h : IsFlat text) (h' : IsFlat text') : IsFlat (text ++ text') := by
  rw [IsFlat, String.toList_append]
  exact List.forall_mem_append.mpr ⟨h, h'⟩

theorem intercalate {sep : String} {texts : List String} (hsep : IsFlat sep)
    (h : ∀ t ∈ texts, IsFlat t) : IsFlat (sep.intercalate texts) := by
  induction texts with
  | nil => exact nofun
  | cons t ts ih =>
    obtain ⟨ht, hts⟩ := List.forall_mem_cons.mp h
    cases ts with
    | nil => simpa using ht
    | cons t' ts =>
      rw [String.intercalate_cons_cons]
      exact (ht.append hsep).append (ih hts)

end IsFlat

def copies (indent : List Char) (n : Nat) : List Char := (List.replicate n indent).flatten

/-- A line of a text, with all that stands before and after it. -/
structure IsLine (text before line after : List Char) : Prop where
  split : text = before ++ (line ++ after)
  starts : before = [] ∨ before.getLast? = some '\n'
  ends : after = [] ∨ after.head? = some '\n'
  unbroken : '\n' ∉ line

/-- A line that begins with as many copies of the indent as braces are open before it, one less if a
closing brace comes next, and no other blanks. -/
def IsIndented (indent : List Char) (depth : Nat) (line : List Char) : Prop :=
  ∃ c rest, line = copies indent (if c = '}' then depth - 1 else depth) ++ c :: rest ∧
    c ≠ ' ' ∧ c ≠ '\t'

/-- A text with balanced braces that end the last line and show in the indents of all lines. -/
structure LaidOut (indent text : List Char) : Prop where
  opensFirst : ∀ before after, text = before ++ after → before.count '}' ≤ before.count '{'
  balanced : text.count '{' = text.count '}'
  ends : ∃ body, text = body ++ ['}', '\n']
  indented : ∀ before line after, IsLine text before line after → line ≠ [] →
    IsIndented indent (before.count '{' - before.count '}') line

/-- A well laid out stretch of text, from one place to another: a place has a number of open braces
and may be inside of a line or at the start of one. -/
inductive Lays (indent : List Char) : Nat × Bool → List Char → Nat × Bool → Prop
  | done (place : Nat × Bool) : Lays indent place [] place
  | char {depth c cs place} (hopen : c ≠ '{') (hclose : c ≠ '}') (hend : c ≠ '\n') :
    Lays indent (depth, true) cs place → Lays indent (depth, true) (c :: cs) place
  | opening {depth cs place} :
    Lays indent (depth + 1, true) cs place → Lays indent (depth, true) ('{' :: cs) place
  | closing {depth cs place} :
    Lays indent (depth, true) cs place → Lays indent (depth + 1, true) ('}' :: cs) place
  | lineEnd {depth inLine cs place} :
    Lays indent (depth, false) cs place → Lays indent (depth, inLine) ('\n' :: cs) place
  | lineStart {depth c cs place} (hblank : c ≠ ' ') (htab : c ≠ '\t') (hend : c ≠ '\n') :
    Lays indent (depth, true) (c :: cs) place →
      Lays indent (depth, false)
        (copies indent (if c = '}' then depth - 1 else depth) ++ c :: cs) place

section Copies

variable {indent : List Char}

theorem mem_of_mem_copies {n : Nat} {c : Char} (h : c ∈ copies indent n) : c ∈ indent := by
  obtain ⟨l, hl, hc⟩ := List.mem_flatten.mp h
  rw [List.eq_of_mem_replicate hl] at hc
  exact hc

theorem notMem_copies (hindent : ∀ c ∈ indent, c = ' ' ∨ c = '\t') (n : Nat) {c : Char}
    (hblank : c ≠ ' ') (htab : c ≠ '\t') : c ∉ copies indent n :=
  fun h => (hindent c (mem_of_mem_copies h)).elim hblank htab

theorem count_copies (hindent : ∀ c ∈ indent, c = ' ' ∨ c = '\t') (n : Nat) {c : Char}
    (hblank : c ≠ ' ') (htab : c ≠ '\t') : (copies indent n).count c = 0 :=
  List.count_eq_zero.mpr (notMem_copies hindent n hblank htab)

end Copies

namespace Lays

variable {indent t u : List Char} {place place' place'' : Nat × Bool}

theorem append (h : Lays indent place t place') (h' : Lays indent place' u place'') :
    Lays indent place (t ++ u) place'' := by
  induction h with
  | done => exact h'
  | char hopen hclose hend _ ih => exact .char hopen hclose hend (ih h')
  | opening _ ih => exact .opening (ih h')
  | closing _ ih => exact .closing (ih h')
  | lineEnd _ ih => exact .lineEnd (ih h')
  | lineStart hblank htab hend _ ih =>
    rw [List.append_assoc]
    exact .lineStart hblank htab hend (ih h')

/-- Flat text goes on in the same line at the same depth. -/
theorem flat {depth : Nat} {text : String} (h : IsFlat text) :
    Lays indent (depth, true) text.toList (depth, true) := by
  unfold IsFlat at h
  generalize text.toList = cs at h
  induction cs with
  | nil => exact .done _
  | cons c cs ih =>
    obtain ⟨⟨hopen, hclose, hend⟩, hcs⟩ := List.forall_mem_cons.mp h
    exact .char hopen hclose hend (ih hcs)

/-- A line begins behind its indent. -/
theorem start {depth : Nat} (hstart : Begins StartsLine t)
    (h : Lays indent (depth, true) t place) :
    Lays indent (depth, false) (copies indent depth ++ t) place := by
  obtain ⟨c, cs, rfl, hblank, htab, hend, hclose⟩ := hstart
  have hline := lineStart hblank htab hend h
  rwa [if_neg hclose] at hline

/-- Texts that leave a place as it is do so together, with others like them in between. -/
theorem intercalate {sep : String} {texts : List String} (hsep : Lays indent place sep.toList place)
    (h : ∀ text ∈ texts, Lays indent place text.toList place) :
    Lays indent place (sep.intercalate texts).toList place := by
  induction texts with
  | nil => exact .done _
  | cons first rest ih =>
    obtain ⟨hfirst, hrest⟩ := List.forall_mem_cons.mp h
    cases rest with
    | nil => simpa using hfirst
    | cons second rest =>
      rw [String.intercalate_cons_cons, String.toList_append, String.toList_append]
      exact (hfirst.append hsep).append (ih hrest)

variable (hindent : ∀ c ∈ indent, c = ' ' ∨ c = '\t')

include hindent

theorem count_eq (h : Lays indent place t place') :
    place.1 + t.count '{' = place'.1 + t.count '}' := by
  induction h with
  | done => rfl
  | char hopen hclose _ _ ih =>
    rw [List.count_cons_of_ne hopen, List.count_cons_of_ne hclose]
    exact ih
  | opening _ ih =>
    rw [List.count_cons_self, List.count_cons_of_ne (by decide)]
    dsimp only at ih ⊢
    omega
  | closing _ ih =>
    rw [List.count_cons_self, List.count_cons_of_ne (by decide)]
    dsimp only at ih ⊢
    omega
  | lineEnd _ ih =>
    rw [List.count_cons_of_ne (by decide), List.count_cons_of_ne (by decide)]
    exact ih
  | lineStart _ _ _ _ ih =>
    rw [List.count_append, List.count_append, count_copies hindent _ (by decide) (by decide),
      count_copies hindent _ (by decide) (by decide), Nat.zero_add, Nat.zero_add]
    exact ih

theorem count_le (h : Lays indent place t place') {before after : List Char}
    (ht : t = before ++ after) : before.count '}' ≤ place.1 + before.count '{' := by
  induction h generalizing before with
  | done =>
    obtain ⟨rfl, -⟩ := List.append_eq_nil_iff.mp ht.symm
    exact Nat.zero_le _
  | char hopen hclose _ _ ih =>
    obtain ⟨rfl, -⟩ | ⟨bs, rfl, hbs⟩ := List.cons_eq_append_iff.mp ht
    · exact Nat.zero_le _
    · rw [List.count_cons_of_ne hopen, List.count_cons_of_ne hclose]
      exact ih hbs
  | opening _ ih =>
    obtain ⟨rfl, -⟩ | ⟨bs, rfl, hbs⟩ := List.cons_eq_append_iff.mp ht
    · exact Nat.zero_le _
    · have hle := ih hbs
      rw [List.count_cons_self, List.count_cons_of_ne (by decide)]
      dsimp only at hle ⊢
      omega
  | closing _ ih =>
    obtain ⟨rfl, -⟩ | ⟨bs, rfl, hbs⟩ := List.cons_eq_append_iff.mp ht
    · exact Nat.zero_le _
    · have hle := ih hbs
      rw [List.count_cons_self, List.count_cons_of_ne (by decide)]
      dsimp only at hle ⊢
      omega
  | lineEnd _ ih =>
    obtain ⟨rfl, -⟩ | ⟨bs, rfl, hbs⟩ := List.cons_eq_append_iff.mp ht
    · exact Nat.zero_le _
    · rw [List.count_cons_of_ne (by decide), List.count_cons_of_ne (by decide)]
      exact ih hbs
  | lineStart _ _ _ _ ih =>
    obtain ⟨bs, rfl, hbs⟩ | ⟨bs, hbs, -⟩ := List.append_eq_append_iff.mp ht
    · rw [List.count_append, List.count_append, count_copies hindent _ (by decide) (by decide),
        count_copies hindent _ (by decide) (by decide), Nat.zero_add, Nat.zero_add]
      exact ih hbs
    · have hnone : before.count '}' = 0 := by
        rw [List.count_eq_zero]
        intro hm
        exact notMem_copies hindent _ (by decide) (by decide) (hbs ▸ List.mem_append_left bs hm)
      omega

omit hindent in
/-- Inside of a line no other one begins, before the next line end at least. -/
theorem before_of_inLine {c : Char} {cs before rest : List Char} (hc : c ≠ '\n')
    (ht : c :: cs = before ++ rest)
    (hbefore : (before = [] ∧ true = false) ∨ before.getLast? = some '\n') :
    ∃ bs, before = c :: bs ∧ cs = bs ++ rest ∧ bs.getLast? = some '\n' := by
  have hlast : before.getLast? = some '\n' := hbefore.resolve_left (by simp)
  obtain ⟨rfl, -⟩ | ⟨bs, rfl, hbs⟩ := List.cons_eq_append_iff.mp ht
  · simp at hlast
  · cases bs with
    | nil => exact absurd (by simpa using hlast) hc
    | cons b bs => exact ⟨b :: bs, rfl, hbs, by rwa [List.getLast?_cons_cons] at hlast⟩

/-- The first line from the start of a line on. -/
theorem isIndented_first {depth : Nat} {c : Char} {cs line after : List Char} (hblank : c ≠ ' ')
    (htab : c ≠ '\t') (hend : c ≠ '\n')
    (ht : copies indent (if c = '}' then depth - 1 else depth) ++ c :: cs = line ++ after)
    (hafter : after = [] ∨ after.head? = some '\n') : IsIndented indent depth line := by
  obtain ⟨rest, rfl, hrest⟩ | ⟨rest, hrest, rfl⟩ := List.append_eq_append_iff.mp ht
  · obtain ⟨rfl, rfl⟩ | ⟨rest, rfl, -⟩ := List.cons_eq_append_iff.mp hrest
    · simp [hend] at hafter
    · exact ⟨c, rest, rfl, hblank, htab⟩
  · have hnl : rest.head? = some '\n' ∨ rest = [] := by
      cases rest with
      | nil => exact .inr rfl
      | cons d rest => exact .inl (by simpa using hafter)
    rcases hnl with hnl | rfl
    · have hm : '\n' ∈ copies indent (if c = '}' then depth - 1 else depth) := by
        rw [hrest]
        exact List.mem_append_right _ (List.mem_of_mem_head? hnl)
      exact absurd hm (notMem_copies hindent _ (by decide) (by decide))
    · simp [hend] at hafter

/-- Every line of a well laid out text is indented by the depth that it stands at. -/
theorem isIndented (h : Lays indent place t place') {before line after : List Char}
    (ht : t = before ++ (line ++ after))
    (hbefore : (before = [] ∧ place.2 = false) ∨ before.getLast? = some '\n')
    (hafter : after = [] ∨ after.head? = some '\n') (hunbroken : '\n' ∉ line) (hne : line ≠ []) :
    IsIndented indent (place.1 + before.count '{' - before.count '}') line := by
  induction h generalizing before with
  | done =>
    obtain ⟨-, hline⟩ := List.append_eq_nil_iff.mp ht.symm
    exact absurd (List.append_eq_nil_iff.mp hline).1 hne
  | char hopen hclose hend _ ih =>
    obtain ⟨bs, rfl, hbs, hlast⟩ := before_of_inLine hend ht hbefore
    rw [List.count_cons_of_ne hopen, List.count_cons_of_ne hclose]
    exact ih hbs (.inr hlast)
  | opening _ ih =>
    obtain ⟨bs, rfl, hbs, hlast⟩ := before_of_inLine (by decide) ht hbefore
    have hih := ih hbs (.inr hlast)
    rw [List.count_cons_self, List.count_cons_of_ne (by decide)]
    rwa [Nat.add_right_comm, Nat.add_assoc] at hih
  | closing _ ih =>
    obtain ⟨bs, rfl, hbs, hlast⟩ := before_of_inLine (by decide) ht hbefore
    have hih := ih hbs (.inr hlast)
    rw [List.count_cons_self, List.count_cons_of_ne (by decide)]
    rwa [Nat.add_right_comm, Nat.add_sub_add_right]
  | lineEnd _ ih =>
    obtain ⟨rfl, hline⟩ | ⟨bs, rfl, hbs⟩ := List.cons_eq_append_iff.mp ht
    · obtain ⟨d, ds, rfl⟩ := List.exists_cons_of_ne_nil hne
      rw [List.cons_append, List.cons.injEq] at hline
      exact absurd (hline.1 ▸ List.mem_cons_self) hunbroken
    · have hlast : (bs = [] ∧ false = false) ∨ bs.getLast? = some '\n' := by
        cases bs with
        | nil => exact .inl ⟨rfl, rfl⟩
        | cons b bs => exact .inr (by simpa using hbefore)
      rw [List.count_cons_of_ne (by decide), List.count_cons_of_ne (by decide)]
      exact ih hbs hlast
  | @lineStart depth c cs place hblank htab hend _ ih =>
    by_cases hnil : before = []
    · subst hnil
      exact isIndented_first hindent hblank htab hend ht hafter
    · have hlast : before.getLast? = some '\n' := hbefore.resolve_left fun h => hnil h.1
      obtain ⟨bs, rfl, hbs⟩ | ⟨bs, hbs, -⟩ := List.append_eq_append_iff.mp ht
      · rw [List.count_append, List.count_append, count_copies hindent _ (by decide) (by decide),
          count_copies hindent _ (by decide) (by decide), Nat.zero_add, Nat.zero_add]
        apply ih hbs
        rw [List.getLast?_append] at hlast
        cases hb : bs.getLast? with
        | some b => simpa [hb] using hlast
        | none =>
          rw [hb, Option.none_or] at hlast
          exact absurd (List.mem_of_getLast? hlast)
            (notMem_copies hindent _ (by decide) (by decide))
      · have hm : '\n' ∈ copies indent (if c = '}' then depth - 1 else depth) := by
          rw [hbs]
          exact List.mem_append_left _ (List.mem_of_getLast? hlast)
        exact absurd hm (notMem_copies hindent _ (by decide) (by decide))

theorem laidOut (h : Lays indent (0, false) t (0, false))
    (hends : ∃ body, t = body ++ ['}', '\n']) : LaidOut indent t where
  opensFirst before after ht := by simpa using h.count_le hindent ht
  balanced := by simpa using h.count_eq hindent
  ends := hends
  indented before line after hline hne := by
    have hbefore : (before = [] ∧ false = false) ∨ before.getLast? = some '\n' :=
      hline.starts.imp (fun h => ⟨h, rfl⟩) id
    simpa using h.isIndented hindent hline.split hbefore hline.ends hline.unbroken hne

end Lays

end ViewWiring
