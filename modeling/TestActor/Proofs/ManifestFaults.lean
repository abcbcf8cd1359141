import Mathlib.Data.List.Nodup
import TestActor.Manifest.Reading
import TestActor.Proofs.AddedEntries

/-!
# Faults of manifest files

A manifest file is read entry by entry with the names that came before, once for the modules, once
for the types and once for the methods of each type. All three walks are one: they stop at the first
entry with a fault, and an entry whose name came before has one. So a file without faults has no
name twice, and everything that it lists is found again under its name, although of several entries
of a name a list shows the first only and a type table the last.

## Main definitions

* `ManifestFile.IsFaultless`: what a file has to be like, said without the walks.
* `ManifestFile.FirstFault`: the fault of the first entry with a fault.

## Main statements

* `firstFault_eq_none_iff`, `firstFault_eq_some_iff`: when a walk finds a fault, and which one.
* `ManifestFile.fault?_eq_none_iff`, `ManifestFile.fault?_eq_some_iff`: the same for a file.
* `Manifest.accepts_faultless_files`: which files are accepted, why others are not, and that
  everything in an accepted file is found.
-/

namespace TestActor

open Text

/-- Where no key stands twice, an element is the only one of its key. -/
theorem filter_of_nodup {α : Type} {key : α → String} {xs : List α} {x : α}
    (hnodup : (xs.map key).Nodup) (hx : x ∈ xs) : xs.filter (fun y => key y == key x) = [x] := by
  induction xs with
  | nil => simp at hx
  | cons y rest ih =>
    rw [List.map_cons, List.nodup_cons] at hnodup
    rcases List.mem_cons.mp hx with rfl | hx
    · rw [List.filter_cons_of_pos (by simp), List.filter_eq_nil_iff.mpr]
      intro z hz he
      have hkey : key z = key x := by simpa using he
      exact hnodup.1 (hkey ▸ List.mem_map_of_mem hz)
    · have hne : key y ≠ key x := fun he => hnodup.1 (he ▸ List.mem_map_of_mem hx)
      rw [List.filter_cons_of_neg (by simpa using hne)]
      exact ih hnodup.2 hx

/-- Where no key stands twice, every element is the one that is found under its key. -/
theorem find?_of_nodup {α : Type} {key : α → String} {xs : List α} {x : α}
    (hnodup : (xs.map key).Nodup) (hx : x ∈ xs) :
    xs.find? (fun y => key y == key x) = some x := by
  rw [← List.head?_filter, filter_of_nodup hnodup hx]
  rfl

/-- A text is blank exactly when trimming leaves nothing of it. -/
theorem Text.isBlankText_iff {s : String} : isBlankText s = true ↔ trimmed s = "" := by
  have hempty : trimmed s = "" ↔ trim s.toList = [] := by
    rw [trimmed, ← String.toList_inj, String.toList_ofList]
    rfl
  rw [hempty]
  exact ⟨trim_eq_nil_of_all_isBlank, all_isBlank_of_trim_eq_nil⟩

/-! ## Walks to the first fault -/

section Walk

variable {α : Type} {name : α → String} {fault? : List String → α → Option ManifestFault}
  {earlier : List String} {xs : List α} {fault : ManifestFault}

/-- The first fault along a list, where an element is looked at with the names that came before. -/
def firstFault (name : α → String) (fault? : List String → α → Option ManifestFault) :
    List String → List α → Option ManifestFault
  | _, [] => none
  | earlier, x :: rest => (fault? earlier x).or (firstFault name fault? (name x :: earlier) rest)

/-- **A walk finds no fault** when all elements are good and no name stands twice. -/
theorem firstFault_eq_none_iff {Good : α → Prop}
    (hfault : ∀ earlier x, fault? earlier x = none ↔ Good x ∧ name x ∉ earlier) :
    firstFault name fault? earlier xs = none ↔
      (∀ x ∈ xs, Good x) ∧ (xs.map name).Nodup ∧ ∀ x ∈ xs, name x ∉ earlier := by
  induction xs generalizing earlier with
  | nil => simp [firstFault]
  | cons x rest ih =>
    rw [firstFault, Option.or_eq_none_iff, hfault, ih, List.map_cons, List.nodup_cons,
      List.forall_mem_cons, List.forall_mem_cons]
    constructor
    · rintro ⟨⟨hx, hnew⟩, hrest, hnodup, hearlier⟩
      have hfirst : name x ∉ rest.map name := by
        intro hmem
        obtain ⟨y, hy, he⟩ := List.mem_map.mp hmem
        exact hearlier y hy (he ▸ List.mem_cons_self)
      exact ⟨⟨hx, hrest⟩, ⟨hfirst, hnodup⟩, hnew,
        fun y hy hmem => hearlier y hy (List.mem_cons_of_mem _ hmem)⟩
    · rintro ⟨⟨hx, hrest⟩, ⟨hfirst, hnodup⟩, hnew, hearlier⟩
      refine ⟨⟨hx, hnew⟩, hrest, hnodup, fun y hy hmem => ?_⟩
      rcases List.mem_cons.mp hmem with he | hmem
      · exact hfirst (he ▸ List.mem_map_of_mem hy)
      · exact hearlier y hy hmem

/-- **A walk finds the fault of the first element with a fault.** -/
theorem firstFault_eq_some_iff :
    firstFault name fault? earlier xs = some fault ↔
      ∃ before x after, xs = before ++ x :: after ∧
        firstFault name fault? earlier before = none ∧
        fault? ((before.map name).reverse ++ earlier) x = some fault := by
  induction xs generalizing earlier with
  | nil => simp [firstFault]
  | cons x rest ih =>
    rw [firstFault, Option.or_eq_some_iff, ih]
    constructor
    · rintro (hx | ⟨hx, before, y, after, rfl, hbefore, hy⟩)
      · exact ⟨[], x, rest, rfl, rfl, hx⟩
      · refine ⟨x :: before, y, after, rfl, ?_, by simpa using hy⟩
        rw [firstFault, hx, hbefore]
        rfl
    · rintro ⟨before, y, after, hsplit, hbefore, hy⟩
      cases before with
      | nil =>
        obtain ⟨rfl, -⟩ := List.cons.inj hsplit
        exact Or.inl hy
      | cons z before =>
        obtain ⟨rfl, rfl⟩ := List.cons.inj hsplit
        rw [firstFault, Option.or_eq_none_iff] at hbefore
        exact Or.inr ⟨hbefore.1, before, y, after, rfl, hbefore.2, by simpa using hy⟩

end Walk

/-! ## Modules -/

namespace ModuleEntry

variable {before : List ModuleEntry} {entry : ModuleEntry} {earlier : List String}
  {fault : ManifestFault}

/-- What is wrong with a module behind others. -/
inductive Faulty (before : List ModuleEntry) (entry : ModuleEntry) : ManifestFault → Prop
  | blankName (hname : trimmed entry.name = "") : Faulty before entry .blankModuleName
  | blankType (hname : trimmed entry.name ≠ "") (htype : trimmed entry.typeName = "") :
      Faulty before entry (.blankModuleType entry.name)
  | repeated (hname : trimmed entry.name ≠ "") (htype : trimmed entry.typeName ≠ "")
      (hmem : entry.name ∈ before.map (·.name)) :
      Faulty before entry (.duplicateModule entry.name)

/-- What the walk finds wrong with a module. -/
def fault? (earlier : List String) (entry : ModuleEntry) : Option ManifestFault :=
  if isBlankText entry.name then some .blankModuleName
  else if isBlankText entry.typeName then some (.blankModuleType entry.name)
  else if earlier.contains entry.name then some (.duplicateModule entry.name)
  else none

theorem fault?_eq_none_iff (earlier : List String) (entry : ModuleEntry) :
    fault? earlier entry = none ↔
      (trimmed entry.name ≠ "" ∧ trimmed entry.typeName ≠ "") ∧ entry.name ∉ earlier := by
  unfold fault?
  simp only [isBlankText_iff]
  split
  · next hname => simp [hname]
  · next hname =>
    split
    · next htype => simp [htype]
    · next htype => simp [hname, htype]

theorem fault?_eq_some_iff (hearlier : ∀ name, name ∈ earlier ↔ name ∈ before.map (·.name)) :
    fault? earlier entry = some fault ↔ Faulty before entry fault := by
  unfold fault?
  simp only [isBlankText_iff]
  constructor
  · intro h
    split at h
    · next hname =>
      cases h
      exact .blankName hname
    · next hname =>
      split at h
      · next htype =>
        cases h
        exact .blankType hname htype
      · next htype =>
        split at h
        · next hmem =>
          cases h
          exact .repeated hname htype ((hearlier _).mp (by simpa using hmem))
        · cases h
  · intro h
    cases h with
    | blankName hname => rw [if_pos hname]
    | blankType hname htype => rw [if_neg hname, if_pos htype]
    | repeated hname htype hmem =>
      rw [if_neg hname, if_neg htype, if_pos (by simpa using (hearlier _).mpr hmem)]

theorem moduleFault?_eq (earlier : List String) (entries : List ModuleEntry) :
    ManifestFile.moduleFault? earlier entries = firstFault (·.name) fault? earlier entries := by
  induction entries generalizing earlier with
  | nil => rfl
  | cons entry rest ih =>
    rw [ManifestFile.moduleFault?, firstFault, fault?, ih]
    split
    · rfl
    · split
      · rfl
      · split <;> rfl

end ModuleEntry

/-! ## Types -/

namespace TypeDecl

variable {before : List TypeDecl} {decl : TypeDecl} {earlier : List String} {fault : ManifestFault}

/-- What is wrong with a type behind others. -/
inductive Faulty (before : List TypeDecl) (decl : TypeDecl) : ManifestFault → Prop
  | repeated (hmem : decl.name ∈ before.map (·.name)) :
      Faulty before decl (.duplicateType decl.name)
  | method {first rest : List MethodDecl} {method : MethodDecl}
      (hname : decl.name ∉ before.map (·.name)) (hsplit : decl.methods = first ++ method :: rest)
      (hnodup : (first.map (·.name)).Nodup) (hmem : method.name ∈ first.map (·.name)) :
      Faulty before decl (.duplicateMethod decl.name method.name)

/-- What the walk finds wrong with a method of a type. -/
def methodFault? (type : String) (earlier : List String) (method : MethodDecl) :
    Option ManifestFault :=
  if earlier.contains method.name then some (.duplicateMethod type method.name) else none

/-- What the walk finds wrong with a type. -/
def fault? (earlier : List String) (decl : TypeDecl) : Option ManifestFault :=
  if earlier.contains decl.name then some (.duplicateType decl.name)
  else firstFault (·.name) (methodFault? decl.name) [] decl.methods

theorem methodFault?_eq_none_iff {type : String} (earlier : List String) (method : MethodDecl) :
    methodFault? type earlier method = none ↔ True ∧ method.name ∉ earlier := by
  simp [methodFault?]

theorem methods_firstFault_eq_none_iff {type : String} {methods : List MethodDecl} :
    firstFault (·.name) (methodFault? type) [] methods = none ↔ (methods.map (·.name)).Nodup := by
  rw [firstFault_eq_none_iff methodFault?_eq_none_iff]
  simp

theorem methods_firstFault_eq_some_iff {type : String} {methods : List MethodDecl} :
    firstFault (·.name) (methodFault? type) [] methods = some fault ↔
      ∃ first method rest, methods = first ++ method :: rest ∧ (first.map (·.name)).Nodup ∧
        method.name ∈ first.map (·.name) ∧ fault = .duplicateMethod type method.name := by
  rw [firstFault_eq_some_iff]
  simp only [methods_firstFault_eq_none_iff]
  refine exists_congr fun first => exists_congr fun method => exists_congr fun rest => ?_
  refine and_congr_right fun _ => and_congr_right fun _ => ?_
  rw [methodFault?, Option.ite_none_right_eq_some]
  simp [eq_comm]

theorem fault?_eq_none_iff (earlier : List String) (decl : TypeDecl) :
    fault? earlier decl = none ↔ (decl.methods.map (·.name)).Nodup ∧ decl.name ∉ earlier := by
  unfold fault?
  split
  · next hmem => simpa using fun _ => hmem
  · next hmem =>
    have hname : decl.name ∉ earlier := by simpa using hmem
    simp [methods_firstFault_eq_none_iff, hname]

theorem fault?_eq_some_iff (hearlier : ∀ name, name ∈ earlier ↔ name ∈ before.map (·.name)) :
    fault? earlier decl = some fault ↔ Faulty before decl fault := by
  have hcontains : earlier.contains decl.name = true ↔ decl.name ∈ before.map (·.name) := by
    rw [List.contains_iff_mem, hearlier]
  unfold fault?
  constructor
  · intro h
    split at h
    · next hmem =>
      cases h
      exact .repeated (hcontains.mp hmem)
    · next hmem =>
      obtain ⟨first, method, rest, hsplit, hnodup, hrepeated, rfl⟩ :=
        methods_firstFault_eq_some_iff.mp h
      exact .method (mt hcontains.mpr hmem) hsplit hnodup hrepeated
  · intro h
    cases h with
    | repeated hmem => rw [if_pos (hcontains.mpr hmem)]
    | method hname hsplit hnodup hmem =>
      rw [if_neg (mt hcontains.mp hname)]
      exact methods_firstFault_eq_some_iff.mpr ⟨_, _, _, hsplit, hnodup, hmem, rfl⟩

theorem methodFault?_eq (type : String) (earlier : List String) (methods : List MethodDecl) :
    ManifestFile.methodFault? type earlier methods
      = firstFault (·.name) (methodFault? type) earlier methods := by
  induction methods generalizing earlier with
  | nil => rfl
  | cons method rest ih =>
    rw [ManifestFile.methodFault?, firstFault, methodFault?, ih]
    split <;> rfl

theorem typeFault?_eq (earlier : List String) (types : List TypeDecl) :
    ManifestFile.typeFault? earlier types = firstFault (·.name) fault? earlier types := by
  induction types generalizing earlier with
  | nil => rfl
  | cons decl rest ih =>
    rw [ManifestFile.typeFault?, firstFault, fault?, ih, methodFault?_eq]
    split <;> rfl

end TypeDecl

/-! ## Files -/

namespace ManifestFile

variable {file : ManifestFile} {fault : ManifestFault}

/-- All modules have names and types, and no name is given twice: to modules, to types, or to
methods of one type. -/
structure IsFaultless (file : ManifestFile) : Prop where
  moduleNames : ∀ entry ∈ file.modules, trimmed entry.name ≠ ""
  moduleTypes : ∀ entry ∈ file.modules, trimmed entry.typeName ≠ ""
  nodup_modules : (file.modules.map (·.name)).Nodup
  nodup_types : (file.types.map (·.name)).Nodup
  nodup_methods : ∀ decl ∈ file.types, (decl.methods.map (·.name)).Nodup

/-- The fault of the first entry with a fault, where all modules come before all types: up to that
entry the file has no faults. -/
inductive FirstFault (file : ManifestFile) : ManifestFault → Prop
  | ofModule {before after : List ModuleEntry} {entry : ModuleEntry} {fault : ManifestFault}
      (hsplit : file.modules = before ++ entry :: after) (hbefore : IsFaultless ⟨before, []⟩)
      (h : entry.Faulty before fault) : FirstFault file fault
  | ofType {before after : List TypeDecl} {decl : TypeDecl} {fault : ManifestFault}
      (hsplit : file.types = before ++ decl :: after) (hbefore : IsFaultless ⟨file.modules, before⟩)
      (h : decl.Faulty before fault) : FirstFault file fault

/-- **A file has no fault found in it exactly when it has none.** -/
theorem fault?_eq_none_iff : file.fault? = none ↔ file.IsFaultless := by
  rw [fault?, Option.or_eq_none_iff, ModuleEntry.moduleFault?_eq, TypeDecl.typeFault?_eq,
    firstFault_eq_none_iff ModuleEntry.fault?_eq_none_iff,
    firstFault_eq_none_iff TypeDecl.fault?_eq_none_iff]
  constructor
  · rintro ⟨⟨hmodules, hnodup, -⟩, hmethods, htypes, -⟩
    exact ⟨fun entry h => (hmodules entry h).1, fun entry h => (hmodules entry h).2, hnodup,
      htypes, hmethods⟩
  · rintro ⟨hnames, htypes, hmodules, hnodup, hmethods⟩
    exact ⟨⟨fun entry h => ⟨hnames entry h, htypes entry h⟩, hmodules, by simp⟩,
      hmethods, hnodup, by simp⟩

theorem moduleFault?_eq_none_iff {entries : List ModuleEntry} :
    moduleFault? [] entries = none ↔ IsFaultless ⟨entries, []⟩ := by
  rw [← fault?_eq_none_iff, fault?]
  simp [typeFault?]

/-- **The fault that is found in a file is the first.** -/
theorem fault?_eq_some_iff : file.fault? = some fault ↔ file.FirstFault fault := by
  have hnames {α : Type} (name : α → String) (before : List α) :
      ∀ n, n ∈ (before.map name).reverse ++ [] ↔ n ∈ before.map name := by simp
  have hmodule : moduleFault? [] file.modules = some fault ↔ ∃ before entry after,
      file.modules = before ++ entry :: after ∧ IsFaultless ⟨before, []⟩ ∧
        entry.Faulty before fault := by
    rw [ModuleEntry.moduleFault?_eq, firstFault_eq_some_iff]
    simp only [← ModuleEntry.moduleFault?_eq, moduleFault?_eq_none_iff,
      ModuleEntry.fault?_eq_some_iff (hnames _ _)]
  have htype : moduleFault? [] file.modules = none ∧ typeFault? [] file.types = some fault ↔
      ∃ before decl after, file.types = before ++ decl :: after ∧
        IsFaultless ⟨file.modules, before⟩ ∧ decl.Faulty before fault := by
    rw [TypeDecl.typeFault?_eq, firstFault_eq_some_iff]
    simp only [← TypeDecl.typeFault?_eq, TypeDecl.fault?_eq_some_iff (hnames _ _),
      ← fault?_eq_none_iff, fault?, Option.or_eq_none_iff]
    constructor
    · rintro ⟨hclean, before, decl, after, hsplit, hbefore, h⟩
      exact ⟨before, decl, after, hsplit, ⟨hclean, hbefore⟩, h⟩
    · rintro ⟨before, decl, after, hsplit, ⟨hclean, hbefore⟩, h⟩
      exact ⟨hclean, before, decl, after, hsplit, hbefore, h⟩
  rw [fault?, Option.or_eq_some_iff, hmodule, htype]
  constructor
  · rintro (⟨before, entry, after, hsplit, hbefore, h⟩ | ⟨before, decl, after, hsplit, hbefore, h⟩)
    · exact .ofModule hsplit hbefore h
    · exact .ofType hsplit hbefore h
  · rintro (⟨hsplit, hbefore, h⟩ | ⟨hsplit, hbefore, h⟩)
    · exact Or.inl ⟨_, _, _, hsplit, hbefore, h⟩
    · exact Or.inr ⟨_, _, _, hsplit, hbefore, h⟩

end ManifestFile

/-! ## Accepted files -/

namespace TypeTable

/-- Where no name stands twice, every type is the one that a table has under its name. -/
theorem get?_ofList_of_nodup {decls : List TypeDecl} {decl : TypeDecl}
    (hnodup : (decls.map (·.name)).Nodup) (hdecl : decl ∈ decls) :
    (ofList decls).get? decl.name = some decl := by
  rw [get?_ofList, filter_of_nodup hnodup hdecl]
  rfl

end TypeTable

namespace Manifest

variable {file : ManifestFile} {manifest : Manifest} {text : String}

theorem ofFile_eq_ok_iff :
    ofFile file = .ok manifest ↔
      file.IsFaultless ∧ manifest = ⟨file.modules, .ofList file.types⟩ := by
  rw [← ManifestFile.fault?_eq_none_iff, ofFile]
  cases file.fault? with
  | some fault => simp
  | none => simp [eq_comm]

theorem ofFile_eq_error_iff {fault : ManifestFault} :
    ofFile file = .error fault ↔ file.FirstFault fault := by
  rw [← ManifestFile.fault?_eq_some_iff, ofFile]
  cases file.fault? <;> simp

/-- **Everything in an accepted file is found.** -/
theorem finds_listed (h : ofFile file = .ok manifest) :
    manifest.modules = file.modules ∧
    (∀ entry ∈ file.modules, manifest.module? entry.name = some entry) ∧
    ∀ decl ∈ file.types, manifest.types.get? decl.name = some decl ∧
      ∀ method ∈ decl.methods, decl.method? method.name = some method := by
  obtain ⟨hfaultless, rfl⟩ := ofFile_eq_ok_iff.mp h
  refine ⟨rfl, fun entry hentry => ?_, fun decl hdecl => ⟨?_, fun method hmethod => ?_⟩⟩
  · exact find?_of_nodup hfaultless.nodup_modules hentry
  · exact TypeTable.get?_ofList_of_nodup hfaultless.nodup_types hdecl
  · exact find?_of_nodup (hfaultless.nodup_methods decl hdecl) hmethod

/-- What a text lists decides over the text. -/
theorem ofText_of_file (h : ManifestFile.ofText text = .ok file) :
    ofText text = (ofFile file).mapError .fault := by
  rw [ofText, h]
  rfl

/-- **A file is accepted exactly when it has no faults.** Otherwise it is refused for its first
fault. In an accepted file nothing hides anything else: the modules are kept in order, and every
module, type and method that is listed is the one that is found under its name. -/
theorem accepts_faultless_files (h : ManifestFile.ofText text = .ok file) :
    ((∃ manifest, ofText text = .ok manifest) ↔ file.IsFaultless) ∧
    (∀ e, ofText text = .error e ↔ ∃ fault, file.FirstFault fault ∧ e = .fault fault) ∧
    ∀ manifest, ofText text = .ok manifest →
      manifest.modules = file.modules ∧
      (∀ entry ∈ file.modules, manifest.module? entry.name = some entry) ∧
      ∀ decl ∈ file.types, manifest.types.get? decl.name = some decl ∧
        ∀ method ∈ decl.methods, decl.method? method.name = some method := by
  rw [ofText_of_file h]
  simp only [mapError_eq_ok_iff]
  refine ⟨?_, fun e => ?_, fun manifest => finds_listed⟩
  · simp only [ofFile_eq_ok_iff]
    exact ⟨fun ⟨_, hfaultless, _⟩ => hfaultless, fun hfaultless => ⟨_, hfaultless, rfl⟩⟩
  · simp only [← ofFile_eq_error_iff]
    cases ofFile file with
    | ok manifest => simp [Except.mapError]
    | error fault => simp [Except.mapError, eq_comm]

/-- A second module of a name that has no type is refused for the type, which is looked at before
the name, and before the methods of any type. With a type and another name the file is accepted. -/
theorem refuses_blank_type_first :
    let text (name type method : String) := "[[modules]]\nname = \"A\"\ntype = \"T\"\n\n" ++
      "[[modules]]\nname = \"" ++ name ++ "\"\ntype = \"" ++ type ++ "\"\n\n" ++
      "[[types]]\nname = \"T\"\nmethods = [\x7b name = \"click\" \x7d, \x7b name = \"" ++ method ++
      "\" \x7d]\n"
    let file (name type method : String) : ManifestFile := {
      modules := [{ name := "A", typeName := "T" }, { name := name, typeName := type }]
      types := [{ name := "T", methods := [{ name := "click" }, { name := method }] }] }
    ManifestFile.ofText (text "A" " " "click") = .ok (file "A" " " "click") ∧
    ofText (text "A" " " "click") = .error (.fault (.blankModuleType "A")) ∧
    ManifestFault.message (.blankModuleType "A") = "module A: type must be non-empty" ∧
    ManifestFile.ofText (text "B" "T" "open") = .ok (file "B" "T" "open") ∧
    ∃ manifest, ofText (text "B" "T" "open") = .ok manifest ∧
      manifest.module? "B" = some { name := "B", typeName := "T" } := by
  intro text file
  have hrefused : ManifestFile.ofText (text "A" " " "click") = .ok (file "A" " " "click") := by
    decide +kernel
  have haccepted : ManifestFile.ofText (text "B" "T" "open") = .ok (file "B" "T" "open") := by
    decide +kernel
  have hsplit : (file "A" " " "click").modules
      = [{ name := "A", typeName := "T" }] ++ { name := "A", typeName := " " } :: [] := rfl
  have hbefore : ManifestFile.IsFaultless ⟨[{ name := "A", typeName := "T" }], []⟩ :=
    ⟨by decide, by decide, by decide, by decide, by decide⟩
  have hfirst : (file "A" " " "click").FirstFault (.blankModuleType "A") :=
    .ofModule hsplit hbefore (.blankType (by decide) (by decide))
  refine ⟨hrefused, ?_, rfl, haccepted, ?_⟩
  · exact ((accepts_faultless_files hrefused).2.1 _).mpr ⟨_, hfirst, rfl⟩
  · obtain ⟨hok, -, hfound⟩ := accepts_faultless_files haccepted
    obtain ⟨manifest, hmanifest⟩ := hok.mpr
      ⟨by decide, by decide, by decide, by decide, by decide⟩
    exact ⟨manifest, hmanifest, (hfound manifest hmanifest).2.1
      { name := "B", typeName := "T" } (by decide)⟩

end Manifest

end TestActor
