import ViewWiring.CommandLine.Run
import ViewWiring.Proofs.Manifest.Acceptance

namespace ViewWiring

theorem decodeText_eq_ok_iff {content : ByteArray} {text : String} :
    decodeText content = .ok text ↔ content = text.toUTF8 := by
  have hdecode : String.fromUTF8? content = some text ↔ content = text.toUTF8 := by
    unfold String.fromUTF8?
    split
    · rename_i hvalid
      rw [Option.some.injEq, ← String.toByteArray_inj]
      rfl
    · rename_i hvalid
      refine ⟨nofun, ?_⟩
      rintro rfl
      exact absurd text.isValidUTF8 hvalid
  rw [← hdecode, decodeText]
  cases String.fromUTF8? content <;> simp

theorem mapError_eq_ok_iff {ε ε' α : Type} {x : Except ε α} {f : ε → ε'} {a : α} :
    x.mapError f = .ok a ↔ x = .ok a := by
  cases x <;> simp [Except.mapError]

theorem run_bind_of_run_eq {σ α β : Type} {x : StateM σ α} {s s' : σ} {a : α}
    (h : x.run s = (a, s')) (f : α → StateM σ β) : (x >>= f).run s = (f a).run s' := by
  rw [StateT.run_bind, h]
  rfl

namespace CommandLine

section Documents

variable {ε δ α : Type} {read : String → Except String δ} {check : δ → Except ε α} {top : Entry}
  {path : String}

/-- A tree holds at a path a text that reads as a document from which the check makes `a`. -/
def Loads (read : String → Except String δ) (check : δ → Except ε α) (top : Entry) (path : String)
    (a : α) : Prop :=
  ∃ (text : String) (document : δ), top.read (Path.places path) = .ok text.toUTF8 ∧
    read text = .ok document ∧ check document = .ok a

theorem readDocument_eq_ok_iff {text : String} {a : α} :
    readDocument read check text = .ok a ↔
      ∃ document, read text = .ok document ∧ check document = .ok a := by
  simp only [readDocument, bind_eq_ok_iff, mapError_eq_ok_iff]

theorem run_load : (load Entry.access read check path).run top =
    (((load Entry.access read check path).run top).1, top) :=
  rfl

theorem load_eq_ok_iff {a : α} :
    ((load Entry.access read check path).run top).1 = .ok a ↔ Loads read check top path a := by
  have hload : ((load Entry.access read check path).run top).1 =
      (((top.read (Path.places path)) >>= decodeText).mapError
        (LoadError.unreadable path)) >>= readDocument read check := rfl
  rw [hload, bind_eq_ok_iff, Loads]
  apply exists_congr
  intro text
  rw [mapError_eq_ok_iff, bind_eq_ok_iff, readDocument_eq_ok_iff]
  simp only [decodeText_eq_ok_iff, exists_eq_right, exists_and_left]

theorem Loads.unique {a b : α} (ha : Loads read check top path a)
    (hb : Loads read check top path b) : a = b := by
  rw [← load_eq_ok_iff] at ha hb
  exact Except.ok.inj (ha.symm.trans hb)

end Documents

variable {frontend : Frontend} {options : Options} {top : Entry}

/-- Where a run looks for its configuration: where it is told to, or else in the working directory if
there is one. -/
def configPath? (options : Options) (top : Entry) : Option String :=
  options.config.or (if (top.find? [defaultConfigPath]).isSome then some defaultConfigPath else none)

/-- The configuration that a run works with; where there is none to load it is the standard one. -/
def Configures (frontend : Frontend) (options : Options) (top : Entry) (config : Config) : Prop :=
  match configPath? options top with
  | some path => Loads frontend.config Config.check top path config
  | none => config = .standard

theorem isPresent_default :
    (Entry.access.isPresent defaultConfigPath).run top =
      ((top.find? [defaultConfigPath]).isSome, top) := by
  have hplaces : Path.places defaultConfigPath = [[defaultConfigPath]] := by decide +kernel
  have hshort : Entry.isTooLong [defaultConfigPath] = false := by decide +kernel
  change ((top.follow (Path.places defaultConfigPath)).toOption.isSome, top) = _
  rw [hplaces]
  cases hfind : top.find? [defaultConfigPath] <;>
    simp [Entry.follow, Entry.passThrough, hshort, hfind, bind, Except.bind, Except.toOption]

theorem run_configPath :
    (configPath Entry.access options).run top = (configPath? options top, top) := by
  unfold configPath configPath?
  cases options.config with
  | some path => rfl
  | none =>
    rw [run_bind_of_run_eq isPresent_default]
    cases (top.find? [defaultConfigPath]).isSome <;> rfl

theorem run_loadConfig :
    (loadConfig Entry.access frontend options).run top =
      (match configPath? options top with
        | some path =>
          ((load Entry.access frontend.config Config.check path).run top).1.mapError fun e => (path, e)
        | none => .ok .standard, top) := by
  rw [loadConfig, run_bind_of_run_eq run_configPath]
  cases configPath? options top <;> rfl

theorem loadConfig_eq_ok_iff {config : Config} :
    ((loadConfig Entry.access frontend options).run top).1 = .ok config ↔
      Configures frontend options top config := by
  rw [run_loadConfig, Configures]
  cases configPath? options top with
  | some path => simp only [mapError_eq_ok_iff, load_eq_ok_iff]
  | none => simp [eq_comm]

theorem Configures.unique {c c' : Config} (h : Configures frontend options top c)
    (h' : Configures frontend options top c') : c = c' := by
  rw [← loadConfig_eq_ok_iff] at h h'
  exact Except.ok.inj (h.symm.trans h')

end CommandLine

end ViewWiring
