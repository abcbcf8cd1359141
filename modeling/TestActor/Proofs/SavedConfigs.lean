import TestActor.Proofs.Rebuild
import TestActor.Proofs.WrittenDocuments

/-!
# Saved configurations are loaded again

A configuration is written as a document with one line for each field, the output only when it is
set. Every string is written in a form that is read back, so the text of a configuration describes
that configuration, whatever is in its strings. A configuration with a fault is not written.

## Main statements

* `Config.ofText_toText`: the text of a configuration describes it.
* `Config.load_after_save`: a configuration that was saved is loaded again.
-/

namespace TestActor

open Toml

namespace Config

/-! ## The lines -/

/-- The lines of a configuration: a key, the text behind it, and the value that the text writes. -/
def lines (config : Config) : List (String × List Char × Value) :=
  let string (key value : String) := (key, writeString value.toList, Value.string value)
  [string "class_name" config.className, string "namespace" config.nspace,
    ("modules", writeStrings config.modules, .array .value (config.modules.map .string)),
    string "manifest" config.manifest.text] ++
  config.output.toList.map fun path => string "output" path.text

/-- The table of a configuration. -/
def entries (config : Config) : Entries :=
  config.lines.map fun line => (line.1, line.2.2)

theorem toList_toText (config : Config) :
    config.toText.toList
      = config.lines.flatMap (fun line => writeAssignment line.1 line.2.1) ++ ['\n'] := by
  unfold toText lines
  cases config.output <;> simp

theorem isBareKey_lines (config : Config) : ∀ line ∈ config.lines, IsBareKey line.1 := by
  unfold lines
  cases config.output <;> simp [IsBareKey] <;> decide

theorem writes_lines (config : Config) : ∀ line ∈ config.lines, Writes line.2.1 line.2.2 := by
  unfold lines
  cases config.output <;> simp [writes_string, writes_strings]

theorem nodup_lines (config : Config) : (config.lines.map (·.1)).Nodup := by
  unfold lines
  cases config.output <;> simp

/-! ## The table -/

theorem parse_toText (config : Config) : Toml.parse config.toText = .ok config.entries :=
  parse_lines (toList_toText config) (isBareKey_lines config) (writes_lines config)
    (nodup_lines config)

theorem listOf?_strings (ss : List String) :
    (Value.array .value (ss.map .string)).listOf? Value.text? = some ss :=
  mapM_map_eq_some fun _ _ => rfl

/-- No entry of another name has to be passed over. -/
theorem fields?_entries (config : Config) :
    config.entries.fields? ["class_name", "namespace", "modules", "manifest", "output"]
      = some fun name => config.entries.lookup name := by
  unfold Entries.fields? entries lines
  cases config.output <;> simp [Entries.areReadable]

theorem ofEntries?_entries (config : Config) : ofEntries? config.entries = some config := by
  unfold ofEntries?
  rw [fields?_entries]
  obtain ⟨className, nspace, modules, manifest, output⟩ := config
  cases output <;>
    simp [entries, lines, Fields.withDefault, Fields.optional, Value.text?, Path.ofValue?,
      List.lookup_cons, listOf?_strings]

/-- **The text of a configuration describes it.** -/
theorem ofText_toText (config : Config) : ofText config.toText = .ok config := by
  refine bind_eq_ok_iff.mpr ⟨config.entries, parse_toText config, ?_⟩
  rw [ofEntries?_entries]

/-! ## Saving and loading -/

variable {fs fs' : FileSystem} {path : Path} {config : Config} {fault : ConfigFault}

theorem validate_eq_ok_iff : config.validate = .ok () ↔ config.fault? = none := by
  unfold validate
  cases config.fault? <;> simp

theorem validate_eq_error_iff : config.validate = .error fault ↔ config.fault? = some fault := by
  unfold validate
  cases config.fault? <;> simp

/-- A file with the text of a configuration is loaded as that configuration. -/
theorem load_of_read (hvalid : config.fault? = none)
    (hread : fs.read path = .ok config.toText.toUTF8) :
    runOn (Config.load path) fs = (.ok config, fs) := by
  have hparsed : Config.parsed path config.toText = .ok config := by
    unfold Config.parsed
    rw [ofText_toText]
    dsimp only
    rw [hvalid]
  have hconfig : fs.config path = .ok config :=
    bind_eq_ok_iff.mpr ⟨config.toText, mapError_eq_ok_iff.mpr (FileSystem.text_of_read hread),
      hparsed⟩
  rw [runOn_configLoad, hconfig]

/-- A configuration is saved by replacing the file, unless it has a fault. -/
theorem runOn_save (path : Path) (config : Config) (fs : FileSystem) :
    runOn (Config.save path config) fs = match config.fault? with
      | some fault => (.error (.config fault), fs)
      | none => ((runOn (Disk.replaceFile path config.toText) fs).1.mapError .replace,
          (runOn (Disk.replaceFile path config.toText) fs).2) := by
  unfold Config.save
  cases config.fault? <;> rfl

theorem runOn_save_of_fault (h : config.fault? = some fault) :
    runOn (Config.save path config) fs = (.error (.config fault), fs) := by
  rw [runOn_save, h]

theorem replaced_of_save (hvalid : config.fault? = none)
    (hsave : runOn (Config.save path config) fs = (.ok (), fs')) :
    runOn (Disk.replaceFile path config.toText) fs = (.ok (), fs') := by
  rw [runOn_save, hvalid] at hsave
  exact runOn_adapt_eq_ok_iff.mp hsave

/-- **A configuration that was saved is loaded again**, whatever is in its strings: the same
configuration, with an output exactly if it had one. A configuration that is not valid is not saved,
and nothing is changed. -/
theorem load_after_save (config : Config) (path : Path) (fs : FileSystem) :
    (config.validate = .ok () → ∀ fs', runOn (Config.save path config) fs = (.ok (), fs') →
      runOn (Config.load path) fs' = (.ok config, fs')) ∧
    ∀ fault, config.validate = .error fault →
      runOn (Config.save path config) fs = (.error (.config fault), fs) := by
  constructor
  · intro hvalid fs' hsave
    rw [validate_eq_ok_iff] at hvalid
    exact load_of_read hvalid (FileSystem.read_of_replaceFile (replaced_of_save hvalid hsave))
  · intro fault hfault
    exact runOn_save_of_fault (validate_eq_error_iff.mp hfault)

/-- All kinds of marks, breaks and controls are in the strings. -/
def unruly : Config where
  nspace := "App\\Tests\r\n\"\"\"double\"\"\" and '''single'''"
  modules := ["it's", "say \"hi\"", "C:\\dir\\", "'\"\\", "\x00\x1b\x7f", "\n\n''", "tab\t", "ü→"]
  manifest := ⟨"mod ules.toml"⟩
  output := some ⟨"out\nput.php\"\""⟩

/-- They are saved below a directory that is not there yet, and loaded again. -/
theorem load_after_save_unruly :
    ∃ left, runOn (Config.save ⟨"conf/actiongen.toml"⟩ unruly) ⟨[], []⟩ = (.ok (), left) ∧
      runOn (Config.load ⟨"conf/actiongen.toml"⟩) left = (.ok unruly, left) := by
  have hsaved : (runOn (Config.save ⟨"conf/actiongen.toml"⟩ unruly) ⟨[], []⟩).1.toOption
      = some () := by decide +kernel
  cases hrun : runOn (Config.save ⟨"conf/actiongen.toml"⟩ unruly) ⟨[], []⟩ with
  | mk result left =>
    rw [hrun] at hsaved
    cases result with
    | error e => cases hsaved
    | ok _ =>
      have hvalid : unruly.validate = .ok () := by
        rw [validate_eq_ok_iff]
        decide +kernel
      exact ⟨left, rfl, (load_after_save unruly _ _).1 hvalid left hrun⟩

end Config

end TestActor
