import ViewWiring.Proofs.Printer.Expressions

namespace ViewWiring.Code

/-- A word, not one of a modifier, with a blank behind it. -/
def BehindModifiers (text : List Char) : Prop :=
  ∃ word rest, text = word ++ rest ∧ (∀ c ∈ word, isWordChar c = true) ∧ Begins (· = ' ') rest ∧
    ∀ m : Modifier, word ≠ m.word.toList

theorem endsWord_of_blank {u : List Char} (h : Begins (· = ' ') u) :
    Begins (isWordChar · = false) u :=
  h.imp fun c hc => by
    rw [hc]
    decide

theorem isWordChar_of_mem_word {m : Modifier} : ∀ c ∈ m.word.toList, isWordChar c = true := by
  apply List.all_eq_true.mp
  cases m <;> decide

theorem Modifier.word_injective : Function.Injective Modifier.word := by
  intro m m' h
  revert h
  cases m <;> cases m' <;> decide

theorem readAlike_modifiers (modifiers modifiers' : List Modifier) :
    ReadAlike BehindModifiers
      (modifiers.flatMap fun m => m.word.toList ++ " ".toList)
      (modifiers'.flatMap fun m => m.word.toList ++ " ".toList) (modifiers = modifiers') := by
  have hblank (u : List Char) : Begins (isWordChar · = false) (" ".toList ++ u) :=
    ⟨' ', u, rfl, by decide⟩
  apply ReadAlike.of_map_id
  apply ReadAlike.flatMap_of_closed
  · intro m _ m' _
    have hword := ReadAlike.words (isWordChar_of_mem_word (m := m))
      (isWordChar_of_mem_word (m := m'))
    exact (hword.closed " ".toList hblank).imp
      fun h => Modifier.word_injective (String.toList_inj.mp h)
  · rintro m - u ⟨word, rest, heq, hword, hrest, hne⟩
    rw [List.append_assoc] at heq
    have hwords := congrArg (List.takeWhile isWordChar) heq
    rw [takeWhile_word isWordChar_of_mem_word (hblank u),
      takeWhile_word hword (endsWord_of_blank hrest)] at hwords
    exact hne m hwords.symm

variable {s : Style} {known : ClassRef → Prop} (hs : s.TellsApart known)

include hs

theorem isWordChar_of_mem_result {returns : ResultType} (h : ∀ r ∈ returns.refs, known r) :
    ∀ c ∈ (s.result returns).toList, isWordChar c = true := by
  cases returns with
  | void =>
    rw [Style.result]
    exact List.all_eq_true.mp (by decide)
  | ofClass type => exact isWordChar_of_isQualifiedName (hs.named type (h type List.mem_cons_self))

theorem result_injective {returns returns' : ResultType} (h : ∀ r ∈ returns.refs, known r)
    (h' : ∀ r ∈ returns'.refs, known r) (he : s.result returns = s.result returns') :
    returns = returns' := by
  have hvoid {type : ClassRef} (htype : known type) : s.names.name type ≠ "void" :=
    ne_reserved_of_isQualifiedName (hs.named type htype) (by decide)
  cases returns with
  | void =>
    cases returns' with
    | void => rfl
    | ofClass type' => exact absurd he.symm (hvoid (h' type' List.mem_cons_self))
  | ofClass type =>
    cases returns' with
    | void => exact absurd he (hvoid (h type List.mem_cons_self))
    | ofClass type' =>
      rw [hs.distinct type type' (h type List.mem_cons_self) (h' type' List.mem_cons_self) he]

theorem result_ne_word {returns : ResultType} (h : ∀ r ∈ returns.refs, known r) (m : Modifier) :
    s.result returns ≠ m.word := by
  cases returns with
  | void =>
    rw [Style.result]
    cases m <;> decide
  | ofClass type =>
    apply ne_reserved_of_isQualifiedName (hs.named type (h type List.mem_cons_self))
    cases m <;> decide

/-- The words before the name of a method are its modifiers and then its result. -/
theorem readAlike_words {modifiers modifiers' : List Modifier} {returns returns' : ResultType}
    (h : ∀ r ∈ returns.refs, known r) (h' : ∀ r ∈ returns'.refs, known r) :
    ReadAlike (Begins (· = ' '))
      (" ".intercalate (modifiers.map Modifier.word ++ [s.result returns])).toList
      (" ".intercalate (modifiers'.map Modifier.word ++ [s.result returns'])).toList
      (modifiers = modifiers' ∧ returns = returns') := by
  have hresult : ReadAlike (Begins (· = ' ')) (s.result returns).toList (s.result returns').toList
      (returns = returns') :=
    ((ReadAlike.words (isWordChar_of_mem_result hs h) (isWordChar_of_mem_result hs h')).of_next
      fun _ => endsWord_of_blank).imp fun he => result_injective hs h h' (String.toList_inj.mp he)
  have hbehind {t : ResultType} (ht : ∀ r ∈ t.refs, known r) (u : List Char)
      (hu : Begins (· = ' ') u) : BehindModifiers ((s.result t).toList ++ u) :=
    ⟨_, u, rfl, isWordChar_of_mem_result hs ht, hu,
      fun m he => result_ne_word hs ht m (String.toList_inj.mp he)⟩
  have htext (ms : List Modifier) (t : ResultType) :
      (" ".intercalate (ms.map Modifier.word ++ [s.result t])).toList =
        (ms.flatMap fun m => m.word.toList ++ " ".toList) ++ (s.result t).toList := by
    rw [intercalate_blank, String.toList_append, String.toList_join, List.map_map, List.flatMap_map]
    simp only [Function.comp_apply, String.toList_append]
  rw [htext, htext]
  exact (readAlike_modifiers modifiers modifiers').append hresult (hbehind h) (hbehind h')

/-- Annotations go on for as long as lines begin with an at sign. -/
theorem readAlike_annotations {annotations annotations' : List ClassRef} (level : Nat)
    (h : ∀ r ∈ annotations, known r) (h' : ∀ r ∈ annotations', known r) :
    ReadAlike (fun u => ∃ rest, u = (s.pad level).toList ++ rest ∧ Begins (· ≠ '@') rest)
      (String.join (annotations.map (s.annotationLine level))).toList
      (String.join (annotations'.map (s.annotationLine level))).toList
      (annotations = annotations') := by
  have htext (rs : List ClassRef) : (String.join (rs.map (s.annotationLine level))).toList =
      rs.flatMap fun r => (s.pad level).toList ++ "@".toList ++ (s.names.name r).toList ++
        "\n".toList := by
    rw [String.toList_join, List.flatMap_map]
    simp only [Style.annotationLine, String.toList_append]
  rw [htext, htext]
  apply ReadAlike.of_map_id
  apply ReadAlike.flatMap_of_closed
  · intro r hr r' hr'
    exact ((hs.readAlike (h r hr) (h' r' hr')).behind _).closed "\n".toList
      fun u => ⟨'\n', u, rfl, by decide⟩
  · rintro r - u ⟨rest, heq, c, cs, rfl, hc⟩
    simp only [List.append_assoc] at heq
    have hcons := List.append_cancel_left heq
    exact hc (List.cons.inj hcons).1.symm

theorem readAlike_params {params params' : List Parameter}
    (h : ∀ p ∈ params, isIdentifier p.name = true ∧ known p.type)
    (h' : ∀ p ∈ params', isIdentifier p.name = true ∧ known p.type) :
    ReadAlike (Begins (· = ')')) (", ".intercalate (params.map s.parameter)).toList
      (", ".intercalate (params'.map s.parameter)).toList (params = params') := by
  have htext (ps : List Parameter) : (", ".intercalate (ps.map s.parameter)).toList =
      [',', ' '].intercalate (ps.map fun p => (s.parameter p).toList) := by
    rw [String.toList_intercalate, List.map_map]
    rfl
  rw [htext, htext]
  apply ReadAlike.of_map_id
  apply readAlike_commas
  · intro p hp p' hp'
    obtain ⟨hname, htype⟩ := h p hp
    obtain ⟨hname', htype'⟩ := h' p' hp'
    have hends (u : List Char) (hu : Begins EndsExpr u) :
        Begins (isIdentifierPart · = false) u :=
      hu.imp fun _ hc => EndsOperand.not_isIdentifierPart (.inr hc)
    have hboth := ((hs.readAlike htype htype').closed " ".toList
      fun u => ⟨' ', u, rfl, by decide⟩).andThen ((readAlike_name hname hname').of_next hends)
    simp only [Style.parameter, String.toList_append]
    exact hboth.imp fun he => by
      cases p
      cases p'
      simpa using he
  · intro p hp
    have htype := hs.begins ((List.mem_append.mp hp).elim (fun hp => (h p hp).2)
      (fun hp => (h' p hp).2))
    simp only [Style.parameter, String.toList_append, List.append_assoc]
    exact htype.append _

/-- The lines before the body of a method show where they end and all that they are made of. -/
theorem readAlike_methodHead {m m' : Method} (level : Nat) (h : Spelled known m.names m.refs)
    (h' : Spelled known m'.names m'.refs) :
    ReadAlike Anything
      (s.methodHead level m.name m.annotations m.modifiers m.returns m.params).toList
      (s.methodHead level m'.name m'.annotations m'.modifiers m'.returns m'.params).toList
      ((m.annotations = m'.annotations ∧ m.modifiers = m'.modifiers ∧ m.returns = m'.returns) ∧
        m.name = m'.name ∧ m.params = m'.params) := by
  obtain ⟨⟨hname, hannotations, hreturns, hparams⟩, -⟩ := Method.spelled_iff.mp h
  obtain ⟨⟨hname', hannotations', hreturns', hparams'⟩, -⟩ := Method.spelled_iff.mp h'
  have hat {m : Method} (hr : ∀ r ∈ m.returns.refs, known r) (u : List Char) :
      Begins (· ≠ '@')
        ((" ".intercalate (m.modifiers.map Modifier.word ++ [s.result m.returns])).toList ++
          u) := by
    have hstart := Style.begins_words (s := s) (fun _ hc => hc) (fun r hr' => hs.begins (hr r hr'))
      m.modifiers
    refine (hstart.append u).imp ?_
    rintro c hc rfl
    exact absurd hc (by decide)
  have hlines : ReadAlike (Begins (· ≠ '@')) (_ ++ (s.pad level).toList)
      (_ ++ (s.pad level).toList) _ :=
    (readAlike_annotations hs level hannotations hannotations').before (s.pad level).toList
      fun u hu => ⟨u, rfl, hu⟩
  have hwords := (hlines.append (readAlike_words hs hreturns hreturns')
    (fun u _ => hat hreturns u) (fun u _ => hat hreturns' u)).closed " ".toList
    fun u => ⟨' ', u, rfl, rfl⟩
  have hcall := (readAlike_name hname hname').closed "(".toList fun u => ⟨'(', u, rfl, by decide⟩
  have hlist := (readAlike_params hs hparams hparams').closed ") \x7b\n".toList
    fun u => ⟨')', _, rfl, rfl⟩
  have hhead := (hwords.andThen hcall).andThen hlist
  have htext (m : Method) :
      (s.methodHead level m.name m.annotations m.modifiers m.returns m.params).toList =
        (String.join (m.annotations.map (s.annotationLine level))).toList ++ (s.pad level).toList ++
        (" ".intercalate (m.modifiers.map Modifier.word ++ [s.result m.returns])).toList ++
        " ".toList ++ (m.name.toList ++ "(".toList) ++
        ((", ".intercalate (m.params.map s.parameter)).toList ++ ") \x7b\n".toList) := by
    simp only [Style.methodHead, String.toList_append, List.append_assoc]
  rw [htext, htext]
  exact hhead.imp fun he => ⟨⟨he.1.1.1, he.1.1.2⟩, he.1.2, he.2⟩

end ViewWiring.Code
