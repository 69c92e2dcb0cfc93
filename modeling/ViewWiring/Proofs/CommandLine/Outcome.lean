import ViewWiring.CommandLine.Frontend
import ViewWiring.Proofs.Batch.Accounting
import ViewWiring.Proofs.CommandLine.Loading
import ViewWiring.Proofs.Diagnostic.Record
import ViewWiring.Proofs.Files.Standing

namespace ViewWiring

/-- Lines that hold no line end are read back from the text that they make up. -/
theorem Lines.ofText_join {lines : List String} (hfeed : ∀ line ∈ lines, '\n' ∉ line.toList)
    (hreturn : ∀ line ∈ lines, '\r' ∉ line.toList) :
    ofText (String.join (lines.map fun line => line ++ "\n")) = lines := by
  have hsplit : (String.join (lines.map fun line => line ++ "\n")).toList.splitOn '\n' =
      lines.map String.toList ++ [[]] := by
    clear hreturn
    induction lines with
    | nil => simp
    | cons line lines ih =>
      obtain ⟨hline, hlines⟩ := List.forall_mem_cons.mp hfeed
      have hcons : (String.join ((line :: lines).map fun line => line ++ "\n")).toList =
          line.toList ++ '\n' :: (String.join (lines.map fun line => line ++ "\n")).toList := by
        simp
      rw [hcons, List.splitOn_append_cons_self, List.splitOn_eq_singleton hline, ih hlines]
      rfl
  have hkeep : ∀ line ∈ lines, chopReturn line.toList = line.toList := by
    intro line hline
    rw [chopReturn, if_neg]
    intro hlast
    exact hreturn line hline (List.mem_of_getLast? hlast)
  have hread : ∀ line ∈ lines, String.ofList (chopReturn line.toList) = line := by
    intro line hline
    rw [hkeep line hline, String.ofList_toList]
  unfold ofText
  rw [hsplit, List.reverse_append, List.reverse_singleton, List.singleton_append]
  simp only [List.reverse_reverse, List.map_map, List.isEmpty_nil, if_true, List.append_nil]
  exact (List.map_congr_left hread).trans (List.map_id lines)

namespace CommandLine

section Outcome

variable (frontend : Frontend) {r : Report} {names : List TypeName}

theorem code_outcome (format : Format) (r : Report) :
    (outcome frontend format r).code = if r.isClean then 0 else 1 := by
  cases format <;> rfl

theorem isClean_iff (h : r.Settles names []) : r.isClean = true ↔ r.diagnostics = [] := by
  rw [Report.isClean, beq_iff_eq, h.count_eq, List.length_eq_zero_iff]

/-- The code of a batch tells whether anything was reported. -/
theorem code_outcome_iff (format : Format) (h : r.Settles names []) :
    ((outcome frontend format r).code = 0 ↔ r.diagnostics = []) ∧
      ((outcome frontend format r).code = 1 ↔ r.diagnostics ≠ []) ∧
      (outcome frontend format r).code ≠ 2 := by
  rw [code_outcome, ne_eq r.diagnostics, ← isClean_iff h]
  cases r.isClean <;> decide

theorem generated_of_diagnostics_eq_nil (h : r.Settles names []) (hr : r.diagnostics = []) :
    r.failed = [] ∧ r.generated.Perm names := by
  have hfailed : r.failed = [] := by rw [h.failed_eq, hr, List.filterMap_nil]
  refine ⟨hfailed, ?_⟩
  have hperm := h.perm
  rwa [hfailed, List.append_nil, List.append_nil] at hperm

theorem lines_outcome (r : Report) :
    Lines.ofText (outcome frontend .json r).stdout = r.diagnostics.map Diagnostic.record := by
  have hjoin : (r.diagnostics.map fun d => d.record ++ "\n") =
      (r.diagnostics.map Diagnostic.record).map fun line => line ++ "\n" := by
    rw [List.map_map]
    rfl
  change Lines.ofText (String.join _) = _
  rw [hjoin]
  apply Lines.ofText_join
  all_goals
    intro line hline
    obtain ⟨d, -, rfl⟩ := List.mem_map.mp hline
    exact Diagnostic.notMem_record (by decide) d

theorem stdout_outcome_eq_empty_iff (r : Report) :
    (outcome frontend .json r).stdout = "" ↔ r.diagnostics = [] := by
  constructor
  · intro h
    have hlines := lines_outcome frontend r
    have hempty : Lines.ofText "" = [] := by decide +kernel
    rw [h, hempty] at hlines
    exact List.map_eq_nil_iff.mp hlines.symm
  · intro h
    change String.join _ = ""
    rw [h]
    rfl

end Outcome

variable {frontend : Frontend} {options : Options} {top : Entry}

theorem run_process (options : Options) (config : Config) (source : Source) (top : Entry) :
    (process Entry.access options config source).run top =
      if options.check then (((source.process config Store.writer).run .empty).1, top)
      else (source.process config (Output.writer options.out)).run top := by
  have hwrite : Entry.access.write = Output.writer := by rw [Entry.access]
  rw [process, hwrite]
  split_ifs
  · rw [StateT.run_pure]
    rfl
  · rfl

theorem state_process_of_check {config : Config} {source : Source}
    (hcheck : options.check = true) :
    ((process Entry.access options config source).run top).2 = top := by
  rw [run_process, if_pos hcheck]

theorem process_settles (options : Options) (config : Config) (source : Source) (top : Entry) :
    ((process Entry.access options config source).run top).1.Settles
      (source.components.map Component.name) [] := by
  rw [run_process]
  split
  · exact source.process_settles config Store.writer .empty
  · exact source.process_settles config (Output.writer options.out) top

/-- A run ends where its configuration or its manifest cannot be loaded, and processes the batch
otherwise. -/
theorem run_cases {args : List String} (h : frontend.options args = .ok options) (top : Entry) :
    let run := (run Entry.access frontend args).run top
    ((¬∃ c d, Configures frontend options top c ∧
        Loads frontend.manifest Manifest.declarations top options.manifest d) ∧
      run.2 = top ∧ run.1.code = 2 ∧ run.1.stdout = "") ∨
    ∃ c d, Configures frontend options top c ∧
      Loads frontend.manifest Manifest.declarations top options.manifest d ∧
      let batch := (process Entry.access options c d.toSource).run top
      run = (outcome frontend options.format batch.1, batch.2) := by
  intro run
  have hrun : run = (runOptions Entry.access frontend options).run top := by
    change (CommandLine.run Entry.access frontend args).run top = _
    rw [CommandLine.run, h]
  have hconfig : (loadConfig Entry.access frontend options).run top =
      (((loadConfig Entry.access frontend options).run top).1, top) := by
    rw [run_loadConfig]
  rw [hrun, runOptions, run_bind_of_run_eq hconfig]
  cases hc : ((loadConfig Entry.access frontend options).run top).1 with
  | error failure =>
    refine .inl ⟨?_, rfl, rfl, rfl⟩
    rintro ⟨c, d, hload, -⟩
    rw [← loadConfig_eq_ok_iff, hc] at hload
    cases hload
  | ok config =>
    rw [run_bind_of_run_eq run_load]
    cases hd : ((load Entry.access frontend.manifest Manifest.declarations
        options.manifest).run top).1 with
    | error e =>
      refine .inl ⟨?_, rfl, rfl, rfl⟩
      rintro ⟨c, d, -, hload⟩
      rw [← load_eq_ok_iff, hd] at hload
      cases hload
    | ok d =>
      refine .inr ⟨config, d, loadConfig_eq_ok_iff.mp hc, load_eq_ok_iff.mp hd, ?_⟩
      exact run_bind_of_run_eq rfl _

/-- Whatever reads the arguments and the documents, a run with well-formed arguments ends with 2 iff
its configuration or its manifest cannot be loaded, and then leaves all files alone and prints no
record. Otherwise it ends with 0 if nothing was reported of the batch, all of which is generated
then, and with 1 if anything was; as records, what was reported is the output, one line for each
diagnostic. A check leaves all files alone. -/
theorem run_outcome {args : List String} (h : frontend.options args = .ok options) (top : Entry) :
    let run := (run Entry.access frontend args).run top
    (run.1.code = 2 ↔
      ¬∃ c d, Configures frontend options top c ∧
        Loads frontend.manifest Manifest.declarations top options.manifest d) ∧
    (run.1.code = 2 → run.2 = top ∧ run.1.stdout = "") ∧
    (∀ c d, Configures frontend options top c →
      Loads frontend.manifest Manifest.declarations top options.manifest d →
      let batch := (process Entry.access options c d.toSource).run top
      run.2 = batch.2 ∧
      (run.1.code = 0 ↔ batch.1.diagnostics = []) ∧
      (run.1.code = 1 ↔ batch.1.diagnostics ≠ []) ∧
      (run.1.code = 0 →
        batch.1.failed = [] ∧ batch.1.generated.Perm (d.components.map Component.name)) ∧
      (options.format = .json →
        run.1.stdout = String.join (batch.1.diagnostics.map fun d => d.record ++ "\n") ∧
        Lines.ofText run.1.stdout = batch.1.diagnostics.map Diagnostic.record)) ∧
    (options.check = true → run.2 = top) ∧
    (options.format = .json → (run.1.stdout = "" ↔ run.1.code = 0 ∨ run.1.code = 2)) := by
  intro run
  obtain ⟨hnone, hstate, hcode, hstdout⟩ | ⟨c, d, hc, hd, hrun⟩ := run_cases h top
  · refine ⟨⟨fun _ => hnone, fun _ => hcode⟩, fun _ => ⟨hstate, hstdout⟩, ?_, fun _ => hstate,
      fun _ => ⟨fun _ => .inr hcode, fun _ => hstdout⟩⟩
    intro c d hc hd
    exact absurd ⟨c, d, hc, hd⟩ hnone
  · let batch := (process Entry.access options c d.toSource).run top
    have hsettles : batch.1.Settles (d.components.map Component.name) [] :=
      process_settles options c d.toSource top
    obtain ⟨hzero, hone, htwo⟩ := code_outcome_iff frontend options.format hsettles
    change run = (outcome frontend options.format batch.1, batch.2) at hrun
    rw [hrun]
    refine ⟨?_, fun h2 => absurd h2 htwo, ?_, ?_, ?_⟩
    · exact ⟨fun h2 => absurd h2 htwo, fun hnone => absurd ⟨c, d, hc, hd⟩ hnone⟩
    · intro c' d' hc' hd'
      obtain rfl := hc.unique hc'
      obtain rfl := hd.unique hd'
      refine ⟨rfl, hzero, hone, ?_, ?_⟩
      · exact fun h0 => generated_of_diagnostics_eq_nil hsettles (hzero.mp h0)
      · intro hjson
        rw [hjson]
        exact ⟨rfl, lines_outcome frontend batch.1⟩
    · exact state_process_of_check
    · intro hjson
      have hstdout := stdout_outcome_eq_empty_iff frontend batch.1
      rw [← hjson, ← hzero] at hstdout
      exact hstdout.trans (or_iff_left htwo).symm

/-- One component is written, and one record tells of the other. -/
theorem run_outcome_beside_interface :
    let manifest := "[[component]]\nname = \"a.Main\"\nextends = \"android.app.Activity\"\n" ++
      "layout = 7\n\n[[component]]\nname = \"a.Shape\"\nkind = \"interface\"\n"
    let top : Entry := .directory [("m.toml", .file manifest.toUTF8)]
    let options : Options := ⟨"m.toml", none, "generated", .json, false⟩
    let run := (run Entry.access .standard ["m.toml", "-f", "json"]).run top
    Frontend.standard.options ["m.toml", "-f", "json"] = .ok options ∧
      Configures .standard options top .standard ∧
      (∃ d, Loads Manifest.ofToml Manifest.declarations top "m.toml" d) ∧
      run.1.code = 1 ∧ (Lines.ofText run.1.stdout).length = 1 ∧
      (run.2.find? ["generated", "a", "Main_.java"]).isSome = true := by
  intro manifest top options run
  have h : Frontend.standard.options ["m.toml", "-f", "json"] = .ok options := by rfl
  have hconfig : Configures .standard options top .standard := by
    have hnone : configPath? options top = none := by decide +kernel
    rw [Configures, hnone]
  let main : Component := ⟨⟨"a.Main"⟩, "a", .«class», some ⟨"android.app.Activity"⟩, some 7, []⟩
  let shape : Component := ⟨⟨"a.Shape"⟩, "a", .interface, none, none, []⟩
  let d : Declarations := ⟨[main, shape], [], []⟩
  have hmanifest : Loads Manifest.ofToml Manifest.declarations top "m.toml" d := by
    have hplaces : Path.places "m.toml" = [["m.toml"]] := by decide +kernel
    have hread (content : ByteArray) :
        (Entry.directory [("m.toml", .file content)]).read (Path.places "m.toml") = .ok content := by
      rw [hplaces, Entry.read_eq_ok_iff rfl]
      exact ⟨by simp, by decide +kernel, rfl⟩
    have hparse : readDocument Manifest.ofToml Manifest.declarations manifest = .ok d := by
      decide +kernel
    obtain ⟨document, hdocument, hcheck⟩ := readDocument_eq_ok_iff.mp hparse
    exact ⟨manifest, document, hread manifest.toUTF8, hdocument, hcheck⟩
  let batch := (process Entry.access options .standard d.toSource).run top
  have hreported : batch.1.diagnostics.length = 1 := by decide +kernel
  have hwritten : (batch.2.find? ["generated", "a", "Main_.java"]).isSome = true := by decide +kernel
  -- what the run comes to is said by the theorem, and is not computed again
  have hrun : run = (CommandLine.run Entry.access .standard ["m.toml", "-f", "json"]).run top := rfl
  have hbatch : batch = (process Entry.access options .standard d.toSource).run top := rfl
  clear_value run batch
  have houtcome := (run_outcome h top).2.2.1 _ d hconfig hmanifest
  rw [← hrun, ← hbatch] at houtcome
  obtain ⟨hfiles, -, hone, -, hjson⟩ := houtcome
  have hfailing : batch.1.diagnostics ≠ [] := by
    rw [← List.length_pos_iff, hreported]
    exact Nat.one_pos
  refine ⟨h, hconfig, ⟨d, hmanifest⟩, hone.mpr hfailing, ?_, ?_⟩
  · rw [(hjson rfl).2, List.length_map]
    exact hreported
  · rw [hfiles]
    exact hwritten

end CommandLine

end ViewWiring
