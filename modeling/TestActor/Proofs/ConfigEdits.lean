import TestActor.Proofs.DocumentSettings
import TestActor.Proofs.Rebuild
import TestActor.Proofs.ReplacingAgain

/-!
# After the configuration was edited

A project is built, and then its configuration is edited. When the manifest and the place of the
generated file stay as they are, a check that finds the file up to date has seen that the modules
are the same, and nothing else: the name of the class and the namespace are in the generated file,
but not in its fingerprint.

## Main definitions

* `Project.IsBuilt`: the generated file of a project holds its document.
* `Project.Edited`: the configuration of a project is edited.

## Main statements

* `Project.IsBuilt.modules_of_upToDate`: what a check that finds the file up to date has seen.
* `unchanged_after_edit`: when the generated file is what a build would write.
-/

namespace TestActor

variable {fs built edited before after : FileSystem} {config : Path} {force : Bool}
  {outcome checked : Outcome} {project project' : Project} {generator : Generator}
  {methods : List String}

/-! ## Projects that are built -/

/-- The generated file holds the document of the project, as a build has left it. -/
structure Project.IsBuilt (project : Project) (config : Path) (generator : Generator)
    (methods : List String) (fs : FileSystem) : Prop where
  loaded : fs.project config = .ok project
  apart : project.IsApart fs config
  prepared : project.generator = .ok generator
  forwarders : generator.forwarders [] generator.actions.entries = .ok methods
  replaced : ∃ before, runOn (Disk.replaceFile project.outputPath
    (Artifact.withFinalBreak (generator.documentOf methods).source)) before = (.ok (), fs)

/-- **A build that writes leaves the project built.** -/
theorem isBuilt_of_build (hproject : fs.project config = .ok project)
    (hbuild : runOn (build config force) fs = (.ok outcome, built))
    (hwritten : outcome.written = true) (hapart : project.IsApart fs config) :
    ∃ generator methods, project.IsBuilt config generator methods built := by
  obtain ⟨generator, document, hgenerator, hproduce, -, -, hreplace⟩ :=
    replaced_of_build hproject hbuild hwritten
  obtain ⟨methods, hmethods, rfl⟩ := Generator.produce_eq_ok_iff.mp hproduce
  have hkept := FileSystem.kept_replaceFile hreplace
  exact ⟨generator, methods, {
    loaded := hkept.project hapart.config_not_mem hapart.manifest_not_mem hproject
    apart := hapart.kept hkept
    prepared := hgenerator
    forwarders := hmethods
    replaced := ⟨fs, hreplace⟩ }⟩

theorem Project.IsBuilt.read (h : project.IsBuilt config generator methods built) :
    built.read project.outputPath = .ok (generator.documentOf methods).contents := by
  obtain ⟨before, hreplace⟩ := h.replaced
  exact FileSystem.read_of_replaceFile hreplace

/-! ## Edits -/

/-- The configuration of a project is edited, and another project is loaded from it. Its manifest
has the same bytes, and its generated file has the same place. -/
structure Project.Edited (project : Project) (config : Path) (before : FileSystem)
    (project' : Project) (after : FileSystem) : Prop where
  edit : FileSystem.EditedAt (before.denoted config) before after
  loaded : runOn (Project.load config) after = (.ok project', after)
  manifest : after.read project'.manifestPath = before.read project.manifestPath
  output : after.denoted project'.outputPath = before.denoted project.outputPath

/-- Two projects share a fingerprint only when they share the text that it is taken of. -/
def Project.ToldApart (project project' : Project) : Prop :=
  ∀ g g', project.generator = .ok g → project'.generator = .ok g' →
    g'.fingerprint = g.fingerprint → g'.subject = g.subject

theorem FileSystem.read_of_text {path : Path} {text : String} {wrap : FileError → ProjectError}
    (h : (fs.text path).mapError wrap = .ok text) : ∃ content, fs.read path = .ok content := by
  obtain ⟨content, hread, -⟩ := bind_eq_ok_iff.mp (mapError_eq_ok_iff.mp h)
  exact ⟨content, hread⟩

/-- The two files of a project can be read. -/
theorem FileSystem.read_of_project (h : fs.project config = .ok project) :
    (∃ content, fs.read config = .ok content) ∧
      ∃ content, fs.read project.manifestPath = .ok content := by
  obtain ⟨hconfig, -, hmanifest⟩ := project_eq_ok_iff.mp h
  obtain ⟨text, htext, -⟩ := bind_eq_ok_iff.mp hconfig
  obtain ⟨text', htext', -⟩ := bind_eq_ok_iff.mp hmanifest
  exact ⟨read_of_text htext, read_of_text htext'⟩

theorem FileSystem.not_directory_of_read {path : Path} {content : ByteArray}
    (h : fs.read path = .ok content) : fs.get? (fs.denoted path) ≠ some .directory := by
  rw [(file_of_read h).2]
  exact fun he => by cases he

namespace Project.Edited

theorem project_eq (h : project.Edited config before project' after) :
    after.project config = .ok project' :=
  project_of_load h.loaded

/-- The configuration is a file, so no path is lost. -/
theorem kept (h : project.Edited config before project' after)
    (hproject : before.project config = .ok project) :
    FileSystem.Kept [before.denoted config] before after := by
  obtain ⟨⟨content, hread⟩, -⟩ := FileSystem.read_of_project hproject
  exact .of_eq_elsewhere h.edit.current (FileSystem.not_directory_of_read hread) h.edit.elsewhere

/-- The same bytes are the same manifest, also when another file is named. -/
theorem manifest_eq (h : project.Edited config before project' after)
    (hproject : before.project config = .ok project) : project'.manifest = project.manifest := by
  obtain ⟨-, -, hold⟩ := FileSystem.project_eq_ok_iff.mp hproject
  obtain ⟨-, -, hnew⟩ := FileSystem.project_eq_ok_iff.mp h.project_eq
  obtain ⟨text, htext, hold⟩ := bind_eq_ok_iff.mp hold
  obtain ⟨text', htext', hnew⟩ := bind_eq_ok_iff.mp hnew
  have hsame : text' = text := by
    have hread : after.text project'.manifestPath = before.text project.manifestPath := by
      unfold FileSystem.text
      rw [h.manifest]
    rw [mapError_eq_ok_iff] at htext htext'
    exact Except.ok.inj (htext'.symm.trans (hread.trans htext))
  unfold Manifest.parsed at hold hnew
  rw [mapError_eq_ok_iff] at hold hnew
  rw [hsame] at hnew
  exact Except.ok.inj (hnew.symm.trans hold)

end Project.Edited

/-! ## What is found after an edit -/

theorem FileSystem.read_of_stamp {path : Path} {stored : String}
    (h : fs.stamp path = .ok (some stored)) : ∃ content, fs.read path = .ok content := by
  unfold stamp at h
  split at h
  · obtain ⟨text, htext, -⟩ := map_eq_ok_iff.mp h
    exact read_of_text htext
  · cases h

namespace Project.IsBuilt

theorem settings_eq (hbuilt : project.IsBuilt config generator methods built) :
    generator.settings = project.config.settings :=
  Generator.settings_of_prepare (Project.generator_eq_ok_iff.mp hbuilt.prepared)

/-- Whatever holds the document has the fingerprint as its stamp. -/
theorem stamp_of_read (hbuilt : project.IsBuilt config generator methods built) {path : Path}
    (hread : fs.read path = .ok (generator.documentOf methods).contents) :
    fs.stamp path = .ok (some generator.fingerprint) := by
  have hproduce := Generator.produce_eq_ok_iff.mpr ⟨methods, hbuilt.forwarders, rfl⟩
  rw [FileSystem.stamp_of_read hread, Generator.stamp_of_produce hproduce,
    Generator.fingerprint_of_produce hproduce]

variable (hbuilt : project.IsBuilt config generator methods built)
  (hedit : project.Edited config built project' edited)

include hbuilt hedit

/-- With the same modules the edited project has the same generator under other settings. -/
theorem generator_of_modules (h : project'.config.modules = project.config.modules) :
    project'.generator = .ok (generator.withSettings project'.config.settings) := by
  have hprepare := Project.generator_eq_ok_iff.mp hbuilt.prepared
  rw [Project.generator_eq_ok_iff, hedit.manifest_eq hbuilt.loaded]
  exact Generator.prepare_withSettings hprepare h

/-- The place of the generated file is touched by no edit, so whatever is read there is what the
build has written. -/
theorem read_of_edit {content : ByteArray}
    (h : edited.read project'.outputPath = .ok content) :
    content = (generator.documentOf methods).contents := by
  have hfile := (FileSystem.file_of_read h).2
  rw [hedit.output, hedit.edit.elsewhere _ hbuilt.apart.output_ne,
    (FileSystem.file_of_read hbuilt.read).2] at hfile
  cases hfile
  rfl

/-- **A check that finds the file up to date has seen that the modules are the same**, unless two
different texts have one fingerprint. -/
theorem modules_of_upToDate (hcheck : runOn (check config) edited = (.ok checked, edited))
    (hfresh : checked.freshness = .upToDate) (htold : project.ToldApart project') :
    edited.read project'.outputPath = .ok (generator.documentOf methods).contents ∧
      project'.config.modules = project.config.modules := by
  rw [runOn_check] at hcheck
  obtain ⟨s, hsurvey, rfl⟩ := map_eq_ok_iff.mp (Prod.mk.inj hcheck).1
  obtain ⟨generator', stored, hgenerator, hstamp, rfl⟩ :=
    FileSystem.exists_of_survey hedit.project_eq hsurvey
  have hstored : stored = some generator'.fingerprint := Freshness.of_eq_upToDate_iff.mp hfresh
  rw [hstored] at hstamp
  obtain ⟨content, hread⟩ := FileSystem.read_of_stamp hstamp
  rw [hbuilt.read_of_edit hedit hread] at hread
  refine ⟨hread, ?_⟩
  -- the stamp that was found is the one of the document that was built
  rw [hbuilt.stamp_of_read hread] at hstamp
  have hsame := htold generator generator' hbuilt.prepared hgenerator
    (Option.some.inj (Except.ok.inj hstamp)).symm
  obtain ⟨-, -, hmodules⟩ := Fingerprint.subject_inj hsame
  rw [Generator.settings_of_prepare (Project.generator_eq_ok_iff.mp hgenerator),
    hbuilt.settings_eq] at hmodules
  exact hmodules

theorem survey_of_modules (hmodules : project'.config.modules = project.config.modules)
    (hread : edited.read project'.outputPath = .ok (generator.documentOf methods).contents) :
    edited.survey config = .ok ⟨generator.withSettings project'.config.settings,
      project'.outputPath, .upToDate⟩ := by
  have hfingerprint : (generator.withSettings project'.config.settings).fingerprint
      = generator.fingerprint := by
    refine Generator.fingerprint_withSettings ?_
    rw [hbuilt.settings_eq]
    exact hmodules
  refine FileSystem.survey_eq_ok_iff.mpr ⟨project', _, _, hedit.project_eq,
    hbuilt.generator_of_modules hedit hmodules, hbuilt.stamp_of_read hread, ?_⟩
  rw [Freshness.of_eq_upToDate_iff.mpr (by rw [hfingerprint])]

/-- **With the same modules a check finds the file up to date**, when it can be read. -/
theorem exists_check (hmodules : project'.config.modules = project.config.modules)
    (hread : edited.read project'.outputPath = .ok (generator.documentOf methods).contents) :
    ∃ checked, runOn (check config) edited = (.ok checked, edited) ∧
      checked.freshness = .upToDate := by
  have hsurvey := hbuilt.survey_of_modules hedit hmodules hread
  refine ⟨Survey.unwritten
    ⟨generator.withSettings project'.config.settings, project'.outputPath, .upToDate⟩, ?_, rfl⟩
  rw [runOn_check, hsurvey]
  rfl

/-- What is written by a forced build after an edit that keeps the modules. -/
theorem read_of_force {rebuilt : FileSystem}
    (hmodules : project'.config.modules = project.config.modules)
    (hforce : runOn (build config true) edited = (.ok outcome, rebuilt)) :
    rebuilt.read project'.outputPath = .ok
      ((generator.withSettings project'.config.settings).documentOf methods).contents := by
  obtain ⟨found, document, hfound, hproduce, -, -, hreplace⟩ :=
    replaced_of_build hedit.project_eq hforce (written_of_force hforce)
  obtain rfl : found = generator.withSettings project'.config.settings :=
    Except.ok.inj (hfound.symm.trans (hbuilt.generator_of_modules hedit hmodules))
  rw [Generator.produce_withSettings hbuilt.forwarders] at hproduce
  rw [FileSystem.read_of_replaceFile hreplace, ← Except.ok.inj hproduce]
  rfl

/-- **A forced build succeeds after an edit that keeps the modules and the path of the file.** -/
theorem exists_force (hmodules : project'.config.modules = project.config.modules)
    (hread : edited.read project'.outputPath = .ok (generator.documentOf methods).contents)
    (hpath : project'.outputPath = project.outputPath) :
    ∃ outcome rebuilt, runOn (build config true) edited = (.ok outcome, rebuilt) := by
  have hsurvey := hbuilt.survey_of_modules hedit hmodules hread
  have hproduce : (generator.withSettings project'.config.settings).produce = .ok _ :=
    Generator.produce_withSettings hbuilt.forwarders
  obtain ⟨before, hreplace⟩ := hbuilt.replaced
  have hsame : ∀ place ∈ built.replaced project.outputPath,
      edited.get? place = built.get? place :=
    fun place hplace => hedit.edit.elsewhere place (hbuilt.apart place hplace).1
  obtain ⟨rebuilt, hagain⟩ := FileSystem.exists_replaceFile_again hreplace
    (hedit.kept hbuilt.loaded) hsame
  refine ⟨_, rebuilt, runOn_build_eq_ok_iff.mpr ⟨_, hsurvey, .inr ⟨?_, _, hproduce, rfl, ?_⟩⟩⟩
  · exact fun h => by cases h.2
  · rw [runOn_save_eq_ok_iff]
    show runOn (Disk.replaceFile project'.outputPath _) edited = _
    rw [hpath]
    exact hagain

end Project.IsBuilt

/-! ## Names -/

theorem Config.all_isIdentifierChar {config : Config} (h : config.fault? = none) :
    config.className.toList.all isIdentifierChar = true := by
  unfold fault? at h
  split at h
  · cases h
  · split at h
    · cases h
    · next hall => simpa using hall

/-- There is no blank in the name of a class. -/
theorem FileSystem.blank_not_mem_className (h : fs.project config = .ok project) :
    ' ' ∉ project.config.className.toList := by
  obtain ⟨hconfig, -, -⟩ := project_eq_ok_iff.mp h
  obtain ⟨text, -, hparsed⟩ := bind_eq_ok_iff.mp hconfig
  unfold Config.parsed at hparsed
  split at hparsed
  · cases hparsed
  · split at hparsed
    · cases hparsed
    · next hfault =>
      rw [← Except.ok.inj hparsed]
      intro hblank
      have hchar := List.all_eq_true.mp (Config.all_isIdentifierChar hfault) ' ' hblank
      exact absurd hchar (by decide)

/-- After an edit that keeps the modules, the file that was built and the file that a build would
write are the same when the edit keeps the name of the class, and the namespace but for separators
at its end. -/
theorem Project.IsBuilt.contents_inj (hbuilt : project.IsBuilt config generator methods built)
    (hedit : project.Edited config built project' edited)
    (hmodules : project'.config.modules = project.config.modules) :
    (generator.documentOf methods).contents
        = ((generator.withSettings project'.config.settings).documentOf methods).contents ↔
      project'.config.className = project.config.className ∧
        Generator.withoutSeparators project'.config.nspace
          = Generator.withoutSeparators project.config.nspace := by
  have hsettings := hbuilt.settings_eq
  have hname := FileSystem.blank_not_mem_className hbuilt.loaded
  have hother := FileSystem.blank_not_mem_className hedit.project_eq
  rw [Generator.contents_withSettings_inj (by rw [hsettings]; exact hmodules)
    (by rw [hsettings]; exact hname) hother, hsettings]
  rfl

/-! ## Another text for the configuration -/

theorem FileSystem.read_put_self {path : Path} {old : ByteArray} (new : ByteArray)
    (h : fs.read path = .ok old) :
    (fs.put (fs.denoted path) (.file new)).read path = .ok new := by
  obtain ⟨hfollow, hfile⟩ := file_of_read h
  have hroot : fs.denoted path ≠ [] := by
    intro he
    rw [he] at hfile
    cases hfile
  have hkept := kept_put (.file new) (not_directory_of_read h)
  exact read_eq_ok_iff.mpr ⟨_, hkept.follow hfollow, get?_put_self fs _ hroot⟩

/-- A configuration is edited when it gets another text that names the same two files. -/
theorem Project.edited_put {config' : Config} {text : String}
    (hproject : fs.project config = .ok project)
    (hparsed : Config.parsed config text = .ok config')
    (hmanifest : config'.manifestPath project.base = project.manifestPath)
    (houtput : config'.outputPath project.base = project.outputPath)
    (hne : fs.denoted project.manifestPath ≠ fs.denoted config) :
    project.Edited config fs ⟨config', project.manifest, project.base⟩
      (fs.put (fs.denoted config) (.file text.toUTF8)) := by
  obtain ⟨⟨old, hold⟩, bytes, hbytes⟩ := FileSystem.read_of_project hproject
  obtain ⟨-, hbase, hloaded⟩ := FileSystem.project_eq_ok_iff.mp hproject
  have hkept := FileSystem.kept_put (.file text.toUTF8) (FileSystem.not_directory_of_read hold)
  have hother : fs.denoted project.manifestPath ∉ [fs.denoted config] := by
    simpa using hne
  have hsame : Project.manifestPath ⟨config', project.manifest, project.base⟩
      = project.manifestPath := hmanifest
  refine ⟨⟨rfl, fun other h => FileSystem.get?_put_of_ne fs _ h⟩, ?_, ?_, ?_⟩
  · rw [runOn_load]
    refine Prod.ext (FileSystem.project_eq_ok_iff.mpr ⟨?_, hbase, ?_⟩) rfl
    · have hread := FileSystem.text_of_read (FileSystem.read_put_self text.toUTF8 hold)
      exact bind_eq_ok_iff.mpr ⟨text, mapError_eq_ok_iff.mpr hread, hparsed⟩
    · rw [hsame]
      exact hkept.manifest hother hloaded
  · rw [hsame, hbytes]
    exact hkept.read hother hbytes
  · rw [hkept.denoted]
    exact congrArg fs.denoted houtput

theorem Project.IsBuilt.toldApart (hbuilt : project.IsBuilt config generator methods built)
    (hedit : project.Edited config built project' edited)
    (hmodules : project'.config.modules = project.config.modules) :
    project.ToldApart project' := by
  intro g g' hg hg' _
  obtain rfl := Except.ok.inj (hbuilt.prepared.symm.trans hg)
  obtain rfl := Except.ok.inj ((hbuilt.generator_of_modules hedit hmodules).symm.trans hg')
  have hsettings := hbuilt.settings_eq
  show Fingerprint.subject _ _ project'.config.modules = Fingerprint.subject _ _ _
  rw [hmodules, hsettings]
  rfl

namespace OneModule

/-- After a build the namespace is edited, and a check finds the generated file up to date. -/
theorem exists_edit {nspace : String}
    (hparsed : Config.parsed configPath (configText nspace) = .ok (inNamespace nspace).config) :
    ∃ outcome built edited checked,
      runOn (build configPath false) files = (.ok outcome, built) ∧ outcome.written = true ∧
      (inNamespace "A").Edited configPath built (inNamespace nspace) edited ∧
      (inNamespace "A").ToldApart (inNamespace nspace) ∧
      runOn (check configPath) edited = (.ok checked, edited) ∧ checked.freshness = .upToDate := by
  obtain ⟨outcome, built, hbuild, hwritten⟩ := exists_build
  obtain ⟨generator, methods, hbuilt⟩ :=
    isBuilt_of_build project_files hbuild hwritten isApart_files
  have hmanifest : built.denoted (inNamespace "A").manifestPath = "modules.toml" :: built.current :=
    rfl
  have hconfig : built.denoted configPath = "actiongen.toml" :: built.current := rfl
  have hne : built.denoted (inNamespace "A").manifestPath ≠ built.denoted configPath := by
    rw [hmanifest, hconfig]
    simp
  have hedit : (inNamespace "A").Edited configPath built (inNamespace nspace) _ :=
    Project.edited_put hbuilt.loaded hparsed rfl rfl hne
  -- the path of the generated file is the same, and so it is read as before
  have hread := (hedit.kept hbuilt.loaded).read
    (by simpa using hbuilt.apart.output_ne) hbuilt.read
  obtain ⟨checked, hcheck, hfresh⟩ := hbuilt.exists_check hedit rfl hread
  exact ⟨outcome, built, _, checked, hbuild, hwritten, hedit, hbuilt.toldApart hedit rfl, hcheck,
    hfresh⟩

end OneModule

/-! ## The file after an edit -/

/-- **When the generated file is what a build would write.** The configuration of a project that was
built is edited, and a check finds the file up to date. Then a document can be produced, a forced
build that succeeds writes it, and a forced build succeeds when the path of the file is the same.
The file holds that document already exactly if the name of the class was kept, and the namespace
but for separators at its end: neither is in the fingerprint. -/
theorem unchanged_after_edit (hload : runOn (Project.load config) fs = (.ok project, fs))
    (hbuild : runOn (build config force) fs = (.ok outcome, built))
    (hwritten : outcome.written = true) (hapart : project.IsApart fs config)
    (hedit : project.Edited config built project' edited) (htold : project.ToldApart project')
    (hcheck : runOn (check config) edited = (.ok checked, edited))
    (hfresh : checked.freshness = .upToDate) :
    ∃ generator document content, project'.generator = .ok generator ∧
      generator.produce = .ok document ∧ edited.read project'.outputPath = .ok content ∧
      (∀ outcome rebuilt, runOn (build config true) edited = (.ok outcome, rebuilt) →
        rebuilt.read project'.outputPath = .ok document.contents) ∧
      (project'.outputPath = project.outputPath →
        ∃ outcome rebuilt, runOn (build config true) edited = (.ok outcome, rebuilt)) ∧
      (content = document.contents ↔
        project'.config.className = project.config.className ∧
          Generator.withoutSeparators project'.config.nspace
            = Generator.withoutSeparators project.config.nspace) := by
  obtain ⟨generator, methods, hbuilt⟩ :=
    isBuilt_of_build (project_of_load hload) hbuild hwritten hapart
  obtain ⟨hread, hmodules⟩ := hbuilt.modules_of_upToDate hedit hcheck hfresh htold
  exact ⟨_, _, _, hbuilt.generator_of_modules hedit hmodules,
    Generator.produce_withSettings hbuilt.forwarders, hread,
    fun _ _ => hbuilt.read_of_force hedit hmodules, hbuilt.exists_force hedit hmodules hread,
    hbuilt.contents_inj hedit hmodules⟩

namespace OneModule

/-- A separator at the end of the namespace makes no difference, and a forced build writes what is
there. -/
theorem unchanged_by_separator :
    ∃ outcome built edited content,
      runOn (build configPath false) files = (.ok outcome, built) ∧
      (inNamespace "A").Edited configPath built (inNamespace "A\\") edited ∧
      edited.read (inNamespace "A\\").outputPath = .ok content ∧
      ∃ outcome' rebuilt, runOn (build configPath true) edited = (.ok outcome', rebuilt) ∧
        rebuilt.read (inNamespace "A\\").outputPath = .ok content := by
  have hparsed : Config.parsed configPath (configText "A\\")
      = .ok (inNamespace "A\\").config := by decide +kernel
  obtain ⟨outcome, built, edited, checked, hbuild, hwritten, hedit, htold, hcheck, hfresh⟩ :=
    exists_edit hparsed
  obtain ⟨generator, document, content, -, -, hread, hforced, hexists, hsame⟩ :=
    unchanged_after_edit load_files hbuild hwritten isApart_files hedit htold hcheck hfresh
  obtain ⟨outcome', rebuilt, hforce⟩ := hexists rfl
  have hcontent : content = document.contents := hsame.mpr ⟨rfl, by decide⟩
  exact ⟨outcome, built, edited, content, hbuild, hedit, hread, outcome', rebuilt, hforce,
    hcontent ▸ hforced outcome' rebuilt hforce⟩

/-- Another namespace is not noticed: a check finds the file up to date, and a forced build writes
another one. -/
theorem changed_by_namespace :
    ∃ outcome built edited checked outcome' rebuilt,
      runOn (Project.load configPath) files = (.ok (inNamespace "A"), files) ∧
      runOn (build configPath false) files = (.ok outcome, built) ∧ outcome.written = true ∧
      (inNamespace "A").IsApart files configPath ∧
      (inNamespace "A").Edited configPath built (inNamespace "B") edited ∧
      (inNamespace "A").ToldApart (inNamespace "B") ∧
      runOn (check configPath) edited = (.ok checked, edited) ∧ checked.freshness = .upToDate ∧
      runOn (build configPath true) edited = (.ok outcome', rebuilt) ∧
      rebuilt.read (inNamespace "B").outputPath ≠ edited.read (inNamespace "B").outputPath := by
  have hparsed : Config.parsed configPath (configText "B") = .ok (inNamespace "B").config := by
    decide +kernel
  obtain ⟨outcome, built, edited, checked, hbuild, hwritten, hedit, htold, hcheck, hfresh⟩ :=
    exists_edit hparsed
  obtain ⟨generator, methods, hbuilt⟩ :=
    isBuilt_of_build project_files hbuild hwritten isApart_files
  obtain ⟨hread, hmodules⟩ := hbuilt.modules_of_upToDate hedit hcheck hfresh htold
  obtain ⟨outcome', rebuilt, hforce⟩ := hbuilt.exists_force hedit hmodules hread rfl
  refine ⟨outcome, built, edited, checked, outcome', rebuilt, load_files, hbuild, hwritten,
    isApart_files, hedit, htold, hcheck, hfresh, hforce, ?_⟩
  rw [hbuilt.read_of_force hedit hmodules hforce, hread]
  intro hsame
  have hnspace := ((hbuilt.contents_inj hedit hmodules).mp (Except.ok.inj hsame).symm).2
  exact absurd hnspace (by decide)

end OneModule

end TestActor
