import StateMachine.CommandLine.Run
import StateMachine.Proofs.Json.ReadBack

/-!
A check of many files. What a file is good for is settled by its own content: it is `Unreadable`,
`Malformed`, or it describes a machine, which may have diagnostics (`Reports`). The exit status of
the whole check is `checkStatus`: the worst that any file calls for.

`le_loadExit_iff` says what the accumulated status of the files without a machine is at least. From
it come that status (`loadExit_loaded`) and, with the diagnostics of the other files, the one of the
report (`checkReport_exitCode`). The entries of the JSON report stand for the files with a machine
one by one (`forall₂_entries`) and are read back from its text (`parse?_checkOutput`).
`execute_check` is what this says of the command on any disk.
-/

set_option autoImplicit false

namespace StateMachine

/-! ### Diagnostics as legible values -/

theorem Location.legible_toJson (n : Nat) (l : Location) : l.toJson.Legible (n + 1) := by
  refine .ofMembers fun member hmember ↦ ?_
  simp only [List.mem_cons, List.not_mem_nil, or_false] at hmember
  obtain rfl | rfl := hmember <;> exact .ofNat _

theorem Subject.legible_toJson (n : Nat) (s : Subject) : s.toJson.Legible (n + 1) := by
  cases s
  all_goals
    refine .ofMembers fun member hmember ↦ ?_
    simp only [List.mem_cons, List.not_mem_nil, or_false] at hmember
    rcases hmember with rfl | rfl | rfl <;> exact .string _

theorem Diagnostic.legible_toJson (n : Nat) (d : Diagnostic) : d.toJson.Legible (n + 2) := by
  refine .ofMembers fun member hmember ↦ ?_
  simp only [members, List.mem_cons, List.not_mem_nil, or_false] at hmember
  obtain rfl | rfl | rfl | rfl | rfl | rfl := hmember
  · exact .string _
  · exact .string _
  · exact .string _
  · exact d.location.legible_toJson n
  · exact d.problem.subject.legible_toJson n
  · exact .string _

namespace CommandLine

/-! ### What a file is good for -/

section Files

variable (contents : String → Except FileError String)

def Unreadable (path : String) : Prop :=
  ∃ e, contents path = .error e

/-- The file can be read and is no machine description. -/
def Malformed (path : String) : Prop :=
  ∃ text e, contents path = .ok text ∧ Machine.parseNamed (fileStem path) text = .error e

def Describes (path : String) (m : Machine) : Prop :=
  ∃ text, contents path = .ok text ∧ Machine.parseNamed (fileStem path) text = .ok m

/-- The file describes some machine. -/
def Described (path : String) : Prop :=
  ∃ m, Describes contents path m

/-- The file describes a machine with a diagnostic of the severity. -/
def Reports (options : CheckOptions) (severity : Severity) (path : String) : Prop :=
  ∃ m, Describes contents path m ∧ ∃ d ∈ m.check options, d.severity = severity

/-- The file with what its content is good for. -/
def loaded (path : String) : LoadedFile :=
  ⟨path, machineOf path (contents path)⟩

variable {contents} {path : String}

theorem loaded_eq_ok_iff {m : Machine} :
    (loaded contents path).result = .ok m ↔ Describes contents path m := by
  simp only [loaded, machineOf, Describes]
  cases contents path with
  | error e => simp
  | ok text => cases hparse : Machine.parseNamed (fileStem path) text <;> simp [hparse]

theorem unreadable_iff :
    Unreadable contents path ↔
      ∃ e, (loaded contents path).result = .error e ∧ e.exitCode = exitFailure := by
  simp only [loaded, machineOf, Unreadable]
  cases contents path with
  | error e => simp [LoadError.exitCode]
  | ok text => cases hparse : Machine.parseNamed (fileStem path) text <;>
      simp [hparse, LoadError.exitCode, exitFailure, exitSyntax]

theorem malformed_iff :
    Malformed contents path ↔
      ∃ e, (loaded contents path).result = .error e ∧ e.exitCode = exitSyntax := by
  simp only [loaded, machineOf, Malformed]
  cases contents path with
  | error e => simp [LoadError.exitCode, exitFailure, exitSyntax]
  | ok text => cases hparse : Machine.parseNamed (fileStem path) text <;>
      simp [hparse, LoadError.exitCode]

theorem reports_iff {options : CheckOptions} {severity : Severity} :
    Reports contents options severity path ↔
      ∃ m, (loaded contents path).result = .ok m ∧
        ∃ d ∈ m.check options, d.severity = severity := by
  simp only [Reports, loaded_eq_ok_iff]

instance (path : String) : Decidable (Unreadable contents path) :=
  match h : contents path with
  | .error e => isTrue ⟨e, h⟩
  | .ok _ => isFalse fun ⟨_, he⟩ ↦ nomatch h.symm.trans he

instance (path : String) : Decidable (Malformed contents path) :=
  match h : (loaded contents path).result with
  | .error e => decidable_of_iff (e.exitCode = exitSyntax) (by simp [malformed_iff, h])
  | .ok _ => isFalse (by simp [malformed_iff, h])

instance (path : String) : Decidable (Described contents path) :=
  match h : (loaded contents path).result with
  | .error _ => isFalse fun ⟨_, hm⟩ ↦ nomatch h.symm.trans (loaded_eq_ok_iff.mpr hm)
  | .ok m => isTrue ⟨m, loaded_eq_ok_iff.mp h⟩

instance (options : CheckOptions) (severity : Severity) (path : String) :
    Decidable (Reports contents options severity path) :=
  match h : (loaded contents path).result with
  | .error _ => isFalse (by simp [reports_iff, h])
  | .ok m => decidable_of_iff (∃ d ∈ m.check options, d.severity = severity)
      (by simp [reports_iff, h])

variable (contents)

/-- The exit status of a check: the worst that any of the files calls for. -/
def checkStatus (settings : CheckSettings) (paths : List String) : Nat :=
  if ∃ path ∈ paths, Unreadable contents path then exitFailure
  else if ∃ path ∈ paths, Malformed contents path then exitSyntax
  else if (∃ path ∈ paths, Reports contents settings.options .error path) ∨
      (settings.warningsAsErrors ∧
        ∃ path ∈ paths, Reports contents settings.options .warning path) then exitDiagnostics
  else exitOk

/-- The order of the files does not count. -/
theorem checkStatus_perm (settings : CheckSettings) {paths others : List String}
    (h : paths.Perm others) :
    checkStatus contents settings paths = checkStatus contents settings others := by
  simp only [checkStatus, h.mem_iff]

end Files

/-! ### The accumulated status -/

/-- The files without a machine are at least as bad as the worst of them. -/
theorem le_foldl_exit_iff (files : List LoadedFile) (exit k : Nat) :
    k ≤ files.foldl
        (fun exit file ↦
          match file.result with
          | .ok _ => exit
          | .error e => max exit e.exitCode)
        exit ↔
      k ≤ exit ∨ ∃ file ∈ files, ∃ e, file.result = .error e ∧ k ≤ e.exitCode := by
  induction files generalizing exit with
  | nil => simp
  | cons file files ih =>
    rw [List.foldl_cons, ih]
    cases hresult : file.result with
    | ok m => simp [hresult]
    | error e => simp [hresult, or_assoc]

theorem le_loadExit_iff (files : List LoadedFile) {k : Nat} (hk : 0 < k) :
    k ≤ loadExit files ↔ ∃ file ∈ files, ∃ e, file.result = .error e ∧ k ≤ e.exitCode :=
  (le_foldl_exit_iff files exitOk k).trans (or_iff_right (Nat.not_le.mpr hk))

section Status

variable {contents : String → Except FileError String} {paths : List String}

theorem le_loadExit_loaded_iff {k : Nat} (hk : 0 < k) :
    k ≤ loadExit (paths.map (loaded contents)) ↔
      (k ≤ exitFailure ∧ ∃ path ∈ paths, Unreadable contents path) ∨
        (k ≤ exitSyntax ∧ ∃ path ∈ paths, Malformed contents path) := by
  simp only [le_loadExit_iff _ hk, unreadable_iff, malformed_iff]
  constructor
  · rintro ⟨file, hfile, e, he, hle⟩
    obtain ⟨path, hpath, rfl⟩ := List.mem_map.mp hfile
    cases e with
    | unreadable => exact .inl ⟨hle, path, hpath, _, he, rfl⟩
    | malformed => exact .inr ⟨hle, path, hpath, _, he, rfl⟩
  · rintro (⟨hle, path, hpath, e, he, hexit⟩ | ⟨hle, path, hpath, e, he, hexit⟩)
    all_goals exact ⟨_, List.mem_map_of_mem hpath, e, he, hexit ▸ hle⟩

/-- The files without a machine call for the status of the worst of them. -/
theorem loadExit_loaded :
    loadExit (paths.map (loaded contents)) =
      if ∃ path ∈ paths, Unreadable contents path then exitFailure
      else if ∃ path ∈ paths, Malformed contents path then exitSyntax
      else exitOk := by
  refine eq_of_forall_le_iff fun k ↦ ?_
  rcases k.eq_zero_or_pos with rfl | hk
  · exact iff_of_true (Nat.zero_le _) (Nat.zero_le _)
  rw [le_loadExit_loaded_iff hk]
  have hworse : exitSyntax ≤ exitFailure := by decide
  split_ifs with hunreadable hmalformed
  · exact ⟨fun h ↦ h.elim And.left fun h ↦ h.1.trans hworse, fun h ↦ .inl ⟨h, hunreadable⟩⟩
  · exact ⟨fun h ↦ h.elim (absurd ·.2 hunreadable) And.left, fun h ↦ .inr ⟨h, hmalformed⟩⟩
  · refine iff_of_false (fun h ↦ ?_) (Nat.not_le.mpr hk)
    exact h.elim (hunreadable ·.2) (hmalformed ·.2)

theorem exists_mem_allDiagnostics_iff {options : CheckOptions} {severity : Severity} :
    (∃ d ∈ allDiagnostics options (paths.map (loaded contents)), d.severity = severity) ↔
      ∃ path ∈ paths, Reports contents options severity path := by
  simp only [allDiagnostics, List.mem_flatMap, List.mem_map, reports_iff]
  constructor
  · rintro ⟨d, ⟨file, ⟨path, hpath, rfl⟩, hd⟩, hseverity⟩
    cases hresult : (loaded contents path).result with
    | error e => simp [hresult] at hd
    | ok m => exact ⟨path, hpath, m, hresult, d, by simpa [hresult] using hd, hseverity⟩
  · rintro ⟨path, hpath, m, hm, d, hd, hseverity⟩
    exact ⟨d, ⟨_, ⟨path, hpath, rfl⟩, by simpa [hm] using hd⟩, hseverity⟩

theorem diagnosticsExit_eq (warningsAsErrors : Bool) (diagnostics : List Diagnostic) :
    diagnosticsExit warningsAsErrors diagnostics =
      if (∃ d ∈ diagnostics, d.severity = .error) ∨
        (warningsAsErrors ∧ ∃ d ∈ diagnostics, d.severity = .warning) then exitDiagnostics
      else exitOk := by
  have herrors : hasErrors diagnostics ↔ ∃ d ∈ diagnostics, d.severity = .error := by
    simp [hasErrors, Diagnostic.isError]
  have hsome : !diagnostics.isEmpty ↔ (∃ d ∈ diagnostics, d.severity = .error) ∨
      ∃ d ∈ diagnostics, d.severity = .warning := by
    rw [Bool.not_eq_true', List.isEmpty_eq_false_iff_exists_mem, ← exists_or]
    refine exists_congr fun d ↦ ?_
    cases d.severity <;> simp
  simp only [diagnosticsExit, Bool.or_eq_true, Bool.and_eq_true, herrors, hsome]
  refine if_congr ?_ rfl rfl
  rw [and_or_left, ← or_assoc, or_iff_left_of_imp And.right]

/-- The report on files has the exit status that their contents call for. -/
theorem checkReport_exitCode (settings : CheckSettings) (style : CheckStyle) :
    (checkReport settings.options settings.warningsAsErrors style
      (paths.map (loaded contents))).exitCode = checkStatus contents settings paths := by
  simp only [checkReport, loadExit_loaded, diagnosticsExit_eq, exists_mem_allDiagnostics_iff,
    checkStatus]
  split_ifs <;> rfl

end Status

/-! ### The entries -/

theorem legible_fileEntry {options : CheckOptions} {dump : Bool} {file : LoadedFile} {entry : Json}
    (h : fileEntry options dump file = some entry) (n : Nat) : entry.Legible (n + 4) := by
  unfold fileEntry at h
  split at h
  · cases h
  next m _ =>
    cases h
    have hdiagnostics : (Json.array ((m.check options).map Diagnostic.toJson)).Legible (n + 3) := by
      refine .array fun item hitem ↦ ?_
      obtain ⟨d, -, rfl⟩ := List.mem_map.mp hitem
      exact d.legible_toJson n
    refine .ofMembers fun member hmember ↦ ?_
    rcases List.mem_append.mp hmember with hfixed | hsource
    · simp only [List.mem_cons, List.not_mem_nil, or_false] at hfixed
      obtain rfl | rfl | rfl | rfl := hfixed
      · exact .string _
      · exact .string _
      · exact .string _
      · exact hdiagnostics
    · split at hsource
      · rw [List.mem_singleton.mp hsource]
        exact .string _
      · cases hsource

section Entries

variable (contents : String → Except FileError String)

/-- The entry names the file and holds the diagnostics of its machine, in the order of the check. -/
def EntryOf (options : CheckOptions) (path : String) (entry : Json) : Prop :=
  ∃ m, Describes contents path m ∧ entry.get? "file" = some (.string path) ∧
    entry.get? "diagnostics" = some (.array ((m.check options).map Diagnostic.toJson))

theorem exists_entryOf {options : CheckOptions} {path : String} (dump : Bool)
    (h : Described contents path) :
    ∃ entry, fileEntry options dump (loaded contents path) = some entry ∧
      EntryOf contents options path entry := by
  obtain ⟨m, hm⟩ := h
  simp only [fileEntry, loaded_eq_ok_iff.mpr hm]
  refine ⟨_, rfl, m, hm, ?_, ?_⟩
  all_goals
    rw [Json.get?_ofMembers]
    cases dump <;> rfl

theorem fileEntry_eq_none {options : CheckOptions} {path : String} (dump : Bool)
    (h : ¬Described contents path) :
    fileEntry options dump (loaded contents path) = none := by
  unfold fileEntry
  split
  · rfl
  · next m hm => exact absurd ⟨m, loaded_eq_ok_iff.mp hm⟩ h

/-- There is one entry for each file with a machine, in the order of the files. -/
theorem forall₂_entries (options : CheckOptions) (dump : Bool) (paths : List String) :
    List.Forall₂ (EntryOf contents options)
      (paths.filter fun path ↦ Described contents path)
      ((paths.map (loaded contents)).filterMap (fileEntry options dump)) := by
  induction paths with
  | nil => exact .nil
  | cons path paths ih =>
    by_cases hpath : Described contents path
    · obtain ⟨entry, hentry, hof⟩ := @exists_entryOf contents options path dump hpath
      rw [List.filter_cons_of_pos (by simpa using hpath), List.map_cons,
        List.filterMap_cons_some hentry]
      exact .cons hof ih
    · rw [List.filter_cons_of_neg (by simpa using hpath), List.map_cons,
        List.filterMap_cons_none (fileEntry_eq_none contents dump hpath)]
      exact ih

end Entries

/-- The JSON report is read back as the array of the entries. -/
theorem parse?_checkOutput (options : CheckOptions) (style : CheckStyle) (files : List LoadedFile)
    (h : style.format = .json) :
    Json.parse? (checkOutput options style files) =
      some (.array (files.filterMap (fileEntry options style.dump))) := by
  have hlegible : (Json.array (files.filterMap (fileEntry options style.dump))).Legible
      Json.maxDepth := by
    refine @Json.Legible.array 126 _ fun entry hentry ↦ ?_
    obtain ⟨file, -, hfile⟩ := List.mem_filterMap.mp hentry
    exact legible_fileEntry hfile 122
  simp only [checkOutput, h]
  have hblanks : ∀ c ∈ ['\n'], Json.isBlank c := List.forall_mem_singleton.mpr (by decide)
  rw [← Json.parse?_pretty hlegible ['\n'] hblanks, String.ofList_append]

/-! ### The command -/

section Execution

variable {σ : Type} (disk : Disk (StateM σ)) (world : σ)
  (contents : String → Except FileError String)

theorem bind_run {α β : Type} {x : StateM σ α} {a : α} {next : σ} (h : x world = (a, next))
    (f : α → StateM σ β) : (x >>= f) world = f a next := by
  simp only [bind, StateT.bind, h]

theorem loadFile_run (hread : ∀ path, disk.read path world = (contents path, world))
    (path : String) : loadFile disk path world = ((loaded contents path).result, world) := by
  rw [loadFile, bind_run world (hread path)]
  rfl

/-- Loading files leaves the world as it is. -/
theorem mapM_loadFile_run (hread : ∀ path, disk.read path world = (contents path, world))
    (paths : List String) :
    (paths.mapM fun path ↦ do return (⟨path, ← loadFile disk path⟩ : LoadedFile) :
      StateM σ (List LoadedFile)) world = (paths.map (loaded contents), world) := by
  induction paths with
  | nil => rfl
  | cons path paths ih =>
    have hfile : (do return (⟨path, ← loadFile disk path⟩ : LoadedFile) : StateM σ LoadedFile)
        world = (loaded contents path, world) :=
      bind_run world (loadFile_run disk world contents hread path) _
    rw [List.mapM_cons, bind_run world hfile, bind_run world ih]
    rfl

theorem execute_check_eq (hread : ∀ path, disk.read path world = (contents path, world))
    (styled : Bool) (settings : Settings) (paths : List String) (dump : Bool)
    (format : CheckFormat) (summary : Bool) :
    execute disk styled settings (.check paths dump format summary) world =
      (.ok (checkReport settings.check.options settings.check.warningsAsErrors
        ⟨dump, format, summary, styled⟩ (paths.map (loaded contents))), world) := by
  rw [execute, bind_run world (mapM_loadFile_run disk world contents hread paths)]
  rfl

/-- The check of any list of files on any disk gives a report. Its exit status is the worst that
any of the files calls for, in whatever order they stand and however the report looks, and the JSON
report has one entry for each file with a machine, in the order of the files. -/
theorem execute_check (hread : ∀ path, disk.read path world = (contents path, world))
    (styled : Bool) (settings : Settings) (paths : List String) (dump : Bool)
    (format : CheckFormat) (summary : Bool) :
    ∃ report,
      execute disk styled settings (.check paths dump format summary) world =
        (.ok report, world) ∧
      report.exitCode = checkStatus contents settings.check paths ∧
      (∀ others styled' dump' format' summary', paths.Perm others → ∃ report',
        execute disk styled' settings (.check others dump' format' summary') world =
          (.ok report', world) ∧ report'.exitCode = report.exitCode) ∧
      (format = .json → ∃ entries, Json.parse? report.output = some (.array entries) ∧
        List.Forall₂ (EntryOf contents settings.check.options)
          (paths.filter fun path ↦ Described contents path) entries) := by
  refine ⟨_, execute_check_eq disk world contents hread styled settings paths dump format summary,
    checkReport_exitCode settings.check _, ?_, ?_⟩
  · intro others styled' dump' format' summary' hperm
    refine ⟨_, execute_check_eq disk world contents hread styled' settings others dump' format'
      summary', ?_⟩
    rw [checkReport_exitCode, checkReport_exitCode, checkStatus_perm contents _ hperm]
  · intro hformat
    exact ⟨_, parse?_checkOutput _ _ _ hformat, forall₂_entries contents _ dump paths⟩

end Execution

/-- A description with an unreachable state and a text that is no description. -/
def mixedTree : FileTree :=
  ⟨[⟨["lamp.sm"], "initial state Off\nend\nstate Attic\nend".toUTF8⟩,
    ⟨["door.sm"], "state [".toUTF8⟩]⟩

theorem execute_check_mixed : ∃ report,
    execute FileTree.disk false .standard
      (.check ["door.sm", "gone.sm", "lamp.sm"] false .json true) mixedTree =
        (.ok report, mixedTree) ∧
    report.exitCode = exitFailure ∧
    ∃ entry, Json.parse? report.output = some (.array [entry]) ∧
      EntryOf mixedTree.read ⟨true⟩ "lamp.sm" entry := by
  obtain ⟨report, hrun, hexit, -, hjson⟩ := execute_check FileTree.disk mixedTree mixedTree.read
    (fun _ ↦ rfl) false .standard ["door.sm", "gone.sm", "lamp.sm"] false .json true
  have hstatus : checkStatus mixedTree.read Settings.standard.check
      ["door.sm", "gone.sm", "lamp.sm"] = exitFailure := by decide +kernel
  have hfiles : (["door.sm", "gone.sm", "lamp.sm"].filter fun path ↦
      Described mixedTree.read path) = ["lamp.sm"] := by decide +kernel
  obtain ⟨entries, hparse, hentries⟩ := hjson rfl
  rw [hfiles] at hentries
  cases hentries with
  | cons hentry hrest =>
    cases hrest
    exact ⟨report, hrun, hexit.trans hstatus, _, hparse, hentry⟩

end CommandLine

end StateMachine
