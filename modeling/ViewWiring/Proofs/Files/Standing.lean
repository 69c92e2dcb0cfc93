import ViewWiring.Files.Tree
import ViewWiring.Proofs.Files.Places

namespace ViewWiring

/-- What stands at a place: a file with its content, or a directory, whatever it holds. -/
inductive Standing
  | file (content : ByteArray)
  | directory

namespace Entry

def standing : Entry → Standing
  | file content => .file content
  | directory _ => .directory

def standing? (top : Entry) (place : List String) : Option Standing :=
  (top.find? place).map standing

/-- A place that paths can lead through. -/
def Passes (top : Entry) (place : List String) : Prop :=
  isTooLong place = false ∧ top.standing? place = some .directory

theorem standing?_nil (e : Entry) : e.standing? [] = some e.standing := by
  cases e <;> rfl

theorem standing?_file_cons (content : ByteArray) (name : String) (rest : List String) :
    (file content).standing? (name :: rest) = none :=
  rfl

theorem standing?_directory_cons (es : List (String × Entry)) (name : String)
    (rest : List String) :
    (directory es).standing? (name :: rest) =
      (es.lookup name).bind fun e => e.standing? rest := by
  rw [standing?, find?, Option.map_bind]
  rfl

theorem standing?_eq_file_iff {top : Entry} {place : List String} {content : ByteArray} :
    top.standing? place = some (.file content) ↔ top.find? place = some (file content) := by
  rw [standing?]
  cases top.find? place with
  | none => simp
  | some e => cases e <;> simp [standing]

theorem find?_append (top : Entry) (here way : List String) :
    top.find? (here ++ way) = (top.find? here).bind fun e => e.find? way := by
  induction here generalizing top with
  | nil => cases top <;> rfl
  | cons name here ih =>
    cases top with
    | file content => rfl
    | directory es =>
      rw [List.cons_append, find?, find?]
      cases es.lookup name with
      | none => rfl
      | some e => exact ih e

theorem standing?_append {top e : Entry} {here : List String} (h : top.find? here = some e)
    (way : List String) : top.standing? (here ++ way) = e.standing? way := by
  rw [standing?, find?_append, h]
  rfl

/-- What stands below a place makes it a directory. -/
theorem standing?_of_below {top : Entry} {here way : List String} {s : Standing} (hne : way ≠ [])
    (h : top.standing? (here ++ way) = some s) : top.standing? here = some .directory := by
  obtain ⟨name, rest, rfl⟩ := List.exists_cons_of_ne_nil hne
  rw [standing?, find?_append] at h
  rw [standing?]
  cases hfind : top.find? here with
  | none => simp [hfind] at h
  | some e =>
    cases e with
    | file content => simp [hfind, find?] at h
    | directory es => rfl

theorem exists_directory_of_standing? {top : Entry} {place : List String}
    (h : top.standing? place = some .directory) : ∃ es, top.find? place = some (directory es) := by
  obtain ⟨e, he, hs⟩ := Option.map_eq_some_iff.mp h
  cases e with
  | file content => cases hs
  | directory es => exact ⟨es, he⟩

theorem lookup_replaceIn (es : List (String × Entry)) (name n : String) (new : Entry) :
    (replaceIn es name new).lookup n =
      if n = name then (es.lookup n).map fun _ => new else es.lookup n := by
  induction es with
  | nil => simp [replaceIn]
  | cons entry es ih =>
    obtain ⟨k, e⟩ := entry
    have hcons : replaceIn ((k, e) :: es) name new =
        (if k = name then (k, new) else (k, e)) :: replaceIn es name new := rfl
    rw [hcons]
    by_cases hk : n = k
    · subst hk
      by_cases hn : n = name <;> simp [hn]
    · have hne : (n == k) = false := by simpa using hk
      by_cases hn : k = name
      · rw [if_pos hn, List.lookup_cons, hne, ih, List.lookup_cons, hne]
      · rw [if_neg hn, List.lookup_cons, hne, ih, List.lookup_cons, hne]

/-- What is put below a name changes the entry of that name, which it adds if need be. -/
theorem exists_put_directory (es : List (String × Entry)) (name : String) (rest : List String)
    (new : Entry) (h : rest = [] ∨ es.lookup name ≠ none) :
    ∃ es', (directory es).put (name :: rest) new = directory es' ∧
      ∀ n, es'.lookup n =
        if n = name then some (((es.lookup name).map fun e => e.put rest new).getD new)
        else es.lookup n := by
  cases hl : es.lookup name with
  | none =>
    have hrest : rest = [] := h.resolve_right (fun hne => hne hl)
    refine ⟨es ++ [(name, new)], by simp [put, hl, hrest], ?_⟩
    intro n
    rw [List.lookup_append]
    by_cases hn : n = name
    · simp [hn, hl]
    · have hne : (n == name) = false := by simpa using hn
      simp [hn, List.lookup_cons, hne]
  | some e =>
    refine ⟨replaceIn es name (e.put rest new), by simp [put, hl], ?_⟩
    intro n
    rw [lookup_replaceIn]
    by_cases hn : n = name <;> simp [hn, hl]

theorem standing?_put_nil (es : List (String × Entry)) {name : String} {rest : List String}
    (new : Entry) (h : rest = [] ∨ es.lookup name ≠ none) :
    ((directory es).put (name :: rest) new).standing? [] = some .directory := by
  obtain ⟨es', hput, -⟩ := exists_put_directory es name rest new h
  rw [hput]
  rfl

theorem standing?_put_cons (es : List (String × Entry)) {name : String} {rest : List String}
    (new : Entry) (h : rest = [] ∨ es.lookup name ≠ none) (n : String) (more : List String) :
    ((directory es).put (name :: rest) new).standing? (n :: more) =
      if n = name then (((es.lookup name).map fun e => e.put rest new).getD new).standing? more
      else (directory es).standing? (n :: more) := by
  obtain ⟨es', hput, hlookup⟩ := exists_put_directory es name rest new h
  rw [hput, standing?_directory_cons, standing?_directory_cons, hlookup]
  split_ifs <;> rfl

/-- A file or an empty directory put into a directory, in place of a file or of nothing, changes
what stands at its own place and nowhere else. -/
theorem standing?_put {top new : Entry} {here : List String} {name : String}
    (hdir : top.standing? here = some .directory)
    (hfree : top.standing? (here ++ [name]) ≠ some .directory)
    (hnew : ∀ n rest, new.standing? (n :: rest) = none) (place : List String) :
    (top.put (here ++ [name]) new).standing? place =
      if place = here ++ [name] then some new.standing else top.standing? place := by
  induction here generalizing top place with
  | nil =>
    obtain ⟨es, hes⟩ := exists_directory_of_standing? hdir
    obtain rfl : top = directory es := by cases top <;> exact Option.some.inj hes
    rw [List.nil_append, standing?_directory_cons] at hfree
    rw [List.nil_append]
    cases place with
    | nil =>
      rw [standing?_put_nil _ _ (.inl rfl)]
      simp [standing?_nil, standing]
    | cons n more =>
      rw [standing?_put_cons _ _ (.inl rfl)]
      by_cases hn : n = name
      · subst hn
        -- nothing was below the name before, and nothing is afterwards
        rw [standing?_directory_cons]
        cases hl : es.lookup n with
        | none => cases more <;> simp [standing?_nil, hnew]
        | some e =>
          cases e with
          | file content => cases more <;> simp [put, standing?_nil, hnew, standing?_file_cons]
          | directory inner => exact absurd (by rw [hl]; rfl) hfree
      · simp [hn]
  | cons first here ih =>
    obtain ⟨inner, hinner⟩ := exists_directory_of_standing? hdir
    cases top with
    | file content => cases hinner
    | directory es =>
      cases hl : es.lookup first with
      | none => rw [find?, hl] at hinner; cases hinner
      | some e =>
        have hthere : es.lookup first ≠ none := by simp [hl]
        rw [standing?_directory_cons, hl] at hdir
        rw [List.cons_append, standing?_directory_cons, hl] at hfree
        rw [List.cons_append]
        cases place with
        | nil =>
          rw [standing?_put_nil _ _ (.inr hthere)]
          simp [standing?_nil, standing]
        | cons n more =>
          rw [standing?_put_cons _ _ (.inr hthere)]
          by_cases hn : n = first
          · subst hn
            rw [standing?_directory_cons, hl]
            simpa using ih hdir hfree more
          · simp [hn]

theorem isTooLong_concat {here : List String} {name : String} :
    isTooLong (here ++ [name]) = false ↔ name.utf8ByteSize ≤ 255 := by
  simp [isTooLong]

theorem isTooLong_append {here way : List String} (hne : way ≠ [])
    (hfit : ∀ name ∈ way, name.utf8ByteSize ≤ 255) : isTooLong (here ++ way) = false := by
  rw [← List.dropLast_append_getLast hne, ← List.append_assoc, isTooLong_concat]
  exact hfit _ (List.getLast_mem hne)

theorem passThrough_eq_ok_iff {top : Entry} {places : List (List String)} :
    top.passThrough places = .ok () ↔ ∀ place ∈ places, top.Passes place := by
  induction places with
  | nil => simp [passThrough]
  | cons place places ih =>
    rw [passThrough, List.forall_mem_cons, Passes, standing?]
    cases isTooLong place with
    | true => simp
    | false =>
      cases top.find? place with
      | none => simp
      | some e => cases e <;> simp [standing, ih]

theorem follow_eq_ok_iff {top e : Entry} {places : List (List String)} {place : List String}
    (hlast : places.getLast? = some place) :
    top.follow places = .ok e ↔
      (∀ p ∈ places.dropLast, top.Passes p) ∧ isTooLong place = false ∧
        top.find? place = some e := by
  rw [follow, hlast, ← passThrough_eq_ok_iff]
  cases top.passThrough places.dropLast with
  | error reason => simp [bind, Except.bind]
  | ok _ =>
    cases hlong : isTooLong place with
    | true => simp [bind, Except.bind, hlong]
    | false => cases hfind : top.find? place <;> simp [bind, Except.bind, hlong, hfind]

theorem read_eq_ok_iff {top : Entry} {places : List (List String)} {place : List String}
    (hlast : places.getLast? = some place) {content : ByteArray} :
    top.read places = .ok content ↔
      (∀ p ∈ places.dropLast, top.Passes p) ∧ isTooLong place = false ∧
        top.standing? place = some (.file content) := by
  have hread : top.read places = .ok content ↔ top.follow places = .ok (file content) := by
    rw [read]
    cases top.follow places with
    | error reason => simp [bind, Except.bind]
    | ok e => cases e <;> simp [bind, Except.bind]
  rw [hread, follow_eq_ok_iff hlast, standing?_eq_file_iff]

/-- Directories that exist are left as they are. -/
theorem makeDirectories_append {top : Entry} {places more : List (List String)}
    (h : ∀ place ∈ places, top.Passes place) :
    top.makeDirectories (places ++ more) = top.makeDirectories more := by
  induction places with
  | nil => rfl
  | cons place places ih =>
    obtain ⟨⟨hlong, hplace⟩, hplaces⟩ := List.forall_mem_cons.mp h
    obtain ⟨es, hes⟩ := exists_directory_of_standing? hplace
    rw [List.cons_append, makeDirectories, hlong, if_neg Bool.false_ne_true, hes]
    exact ih hplaces

/-- Where no file is in the way, directories are made all the way down. -/
theorem makeDirectories_visits {top : Entry} {here names : List String}
    (hplain : ∀ name ∈ names, Path.IsPlain name) (hfit : ∀ name ∈ names, name.utf8ByteSize ≤ 255)
    (hhere : top.standing? here = some .directory)
    (hfree : ∀ place ∈ Path.visits here names, ∀ content,
      top.standing? place ≠ some (.file content)) :
    ∃ top', top.makeDirectories (Path.visits here names) = (.ok (), top') ∧
      ∀ place, top'.standing? place =
        if place ∈ Path.visits here names then some .directory else top.standing? place := by
  induction names generalizing top here with
  | nil => exact ⟨top, rfl, by simp [Path.visits]⟩
  | cons name names ih =>
    obtain ⟨hname, hnames⟩ := List.forall_mem_cons.mp hplain
    obtain ⟨hsize, hsizes⟩ := List.forall_mem_cons.mp hfit
    rw [Path.visits, hname.step_eq, List.forall_mem_cons] at hfree
    obtain ⟨hfirst, hrest⟩ := hfree
    rw [Path.visits, hname.step_eq, makeDirectories, isTooLong_concat.mpr hsize,
      if_neg Bool.false_ne_true]
    have hthere : top.standing? (here ++ [name]) =
        (top.find? (here ++ [name])).map standing := rfl
    cases hfind : top.find? (here ++ [name]) with
    | some e =>
      rw [hfind] at hthere
      cases e with
      | file content => exact absurd hthere (hfirst content)
      | directory es =>
        obtain ⟨top', hmake, hstand⟩ := ih hnames hsizes hthere hrest
        refine ⟨top', hmake, ?_⟩
        intro place
        simp only [hstand, List.mem_cons]
        by_cases hp : place = here ++ [name]
        · simp [hp, hthere, standing]
        · simp [hp]
    | none =>
      rw [hfind] at hthere
      let made := top.put (here ++ [name]) (directory [])
      have hmade : ∀ place, made.standing? place =
          if place = here ++ [name] then some .directory else top.standing? place :=
        standing?_put hhere (by simp [hthere]) fun _ _ => rfl
      have hfree' : ∀ place ∈ Path.visits (here ++ [name]) names, ∀ content,
          made.standing? place ≠ some (.file content) := by
        intro place hplace content
        rw [hmade]
        split
        · simp
        · exact hrest place hplace content
      obtain ⟨top', hmake, hstand⟩ := ih hnames hsizes (by rw [hmade, if_pos rfl]) hfree'
      refine ⟨top', hmake, ?_⟩
      intro place
      simp only [hstand, hmade, List.mem_cons]
      by_cases hp : place = here ++ [name]
      · simp [hp]
      · simp [hp]

/-- A file is written into a directory unless a directory is in its place. -/
theorem write_concat {top : Entry} {here : List String} {name : String} (content : ByteArray)
    (hfit : name.utf8ByteSize ≤ 255) (hhere : top.standing? here = some .directory)
    (hfree : top.standing? (here ++ [name]) ≠ some .directory) :
    ∃ top', top.write (here ++ [name]) content = (.ok (), top') ∧
      ∀ place, top'.standing? place =
        if place = here ++ [name] then some (.file content) else top.standing? place := by
  refine ⟨top.put (here ++ [name]) (file content), ?_, standing?_put hhere hfree fun _ _ => rfl⟩
  rw [write, isTooLong_concat.mpr hfit, if_neg Bool.false_ne_true]
  cases hfind : top.find? (here ++ [name]) with
  | none => rfl
  | some e =>
    cases e with
    | file old => rfl
    | directory es => exact absurd (by rw [standing?, hfind]; rfl) hfree

end Entry

end ViewWiring
