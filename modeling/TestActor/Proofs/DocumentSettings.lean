import TestActor.Build
import TestActor.Proofs.FingerprintText
import TestActor.Proofs.Production

/-!
# Settings and the file that is written

Of the settings, only the modules take part in the preparation and in the fingerprint. The name of
the class and the namespace are put into the text, and they can be read off from it again: behind
the blank after the word `trait` stands the name, which has no blank in it, and before the imports
stands the namespace.

## Main statements

* `Generator.produce_withSettings`: what is produced under other settings.
* `Generator.contents_withSettings_inj`: under which settings the same file is written.
-/

namespace TestActor

/-- The bytes that are written for a document. -/
def Document.contents (d : Document) : ByteArray :=
  (Artifact.withFinalBreak d.source).toUTF8

/-! ## Texts -/

/-- The last `c` of a text splits it in one way. -/
theorem Text.append_cons_inj {c : Char} {p q s t : List Char} (hs : c ∉ s) (ht : c ∉ t)
    (h : p ++ c :: s = q ++ c :: t) : p = q ∧ s = t := by
  rcases List.append_eq_append_iff.mp h with ⟨m, rfl, hm⟩ | ⟨m, rfl, hm⟩
  · cases m with
    | nil => exact ⟨(List.append_nil p).symm, (List.cons.inj hm).2⟩
    | cons d m =>
      obtain ⟨-, rfl⟩ := List.cons.inj hm
      exact absurd (List.mem_append_right m List.mem_cons_self) hs
  · cases m with
    | nil => exact ⟨List.append_nil q, ((List.cons.inj hm).2).symm⟩
    | cons d m =>
      obtain ⟨-, rfl⟩ := List.cons.inj hm
      exact absurd (List.mem_append_right m List.mem_cons_self) ht

/-- The first `c` of a text splits it in one way. -/
theorem Text.append_cons_inj_of_first {c : Char} {p q s t : List Char} (hp : c ∉ p) (hq : c ∉ q)
    (h : p ++ c :: s = q ++ c :: t) : p = q ∧ s = t := by
  have hreverse : s.reverse ++ c :: p.reverse = t.reverse ++ c :: q.reverse := by
    simpa using congrArg List.reverse h
  obtain ⟨hs, hp⟩ := Text.append_cons_inj (by simpa using hp) (by simpa using hq) hreverse
  exact ⟨List.reverse_inj.mp hp, List.reverse_inj.mp hs⟩

namespace Generator

variable {g : Generator} {settings : Settings} {methods : List String} {d : Document}

/-! ## The same generator under other settings -/

/-- The same modules and actions under other settings. -/
def withSettings (g : Generator) (settings : Settings) : Generator :=
  { g with settings }

theorem fingerprint_withSettings (h : settings.modules = g.settings.modules) :
    (g.withSettings settings).fingerprint = g.fingerprint := by
  unfold fingerprint withSettings
  rw [h]

/-- **The modules are all that is prepared of the settings.** -/
theorem prepare_withSettings {source : ModuleSource} {types : Introspector} {others : Settings}
    (hg : prepare settings source types = .ok g) (h : others.modules = settings.modules) :
    prepare others source types = .ok (g.withSettings others) := by
  obtain ⟨contributed, hcontributed, rfl⟩ := prepare_eq_ok_iff.mp hg
  rw [← h] at hcontributed
  exact prepare_eq_ok_iff.mpr ⟨contributed, hcontributed, rfl⟩

/-- Forwarding methods do not depend on the settings. -/
theorem forwarders_withSettings (emitted : List String) (entries : List (String × String)) :
    (g.withSettings settings).forwarders emitted entries = g.forwarders emitted entries := by
  rw [forwarders_eq, forwarders_eq]
  rfl

/-- **Under other settings the same forwarding methods are produced.** -/
theorem produce_withSettings (h : g.forwarders [] g.actions.entries = .ok methods) :
    (g.withSettings settings).produce = .ok ((g.withSettings settings).documentOf methods) :=
  produce_eq_ok_iff.mpr ⟨methods, (forwarders_withSettings _ _).trans h, rfl⟩

/-! ## The text around the settings -/

section Source

open Template

/-- The placeholders that do not depend on the namespace or on the name. -/
def IsCommonKey (key : String) : Prop :=
  key = "hash" ∨ key = "imports" ∨ key = "methods"

theorem lookup_withSettings {key : String} (h : settings.modules = g.settings.modules)
    (hkey : IsCommonKey key) :
    ((g.withSettings settings).documentValues methods).lookup key
      = (g.documentValues methods).lookup key := by
  have himports : (g.withSettings settings).imports = g.imports := rfl
  unfold documentValues
  rw [fingerprint_withSettings h, himports]
  rcases hkey with rfl | rfl | rfl <;> simp [List.lookup_cons]

theorem lookup_namespace (g : Generator) (methods : List String) :
    (g.documentValues methods).lookup "namespace_prefix"
      = some (qualifier (withoutSeparators g.settings.nspace)) := by
  simp [documentValues, List.lookup_cons]

theorem lookup_name (g : Generator) (methods : List String) :
    (g.documentValues methods).lookup "name" = some g.settings.className := by
  simp [documentValues, List.lookup_cons]

/-- Where the namespace and the name stand in the template. -/
theorem exists_pieces_actions :
    ∃ front middle back : List Piece,
      Template.actions.pieces = front ++ .slot "namespace_prefix" ::
        (middle ++ .text "\n\ntrait " :: .slot "name" :: back) ∧
      ∀ key, .slot key ∈ front ∨ .slot key ∈ middle ∨ .slot key ∈ back → IsCommonKey key := by
  refine ⟨Template.actions.pieces.take 3, (Template.actions.pieces.drop 4).take 5,
    Template.actions.pieces.drop 11, ?_, ?_⟩
  · simp [Template.actions]
  · simp [Template.actions, IsCommonKey]

/-- A source is the namespace and the name between texts that depend on neither. -/
theorem exists_source_withSettings (g : Generator) (methods : List String) :
    ∃ front middle back : List Char, ∀ settings : Settings,
      settings.modules = g.settings.modules →
      ((g.withSettings settings).documentOf methods).source.toList
        = front ++ ((qualifier (withoutSeparators settings.nspace)).toList ++ middle
          ++ ' ' :: settings.className.toList ++ back) := by
  obtain ⟨front, middle, back, hpieces, hcommon⟩ := exists_pieces_actions
  let common := substituted (g.documentValues methods)
  refine ⟨(common front).toList, (common middle ++ "\n\ntrait").toList, (common back).toList, ?_⟩
  intro settings hmodules
  have hsame : ∀ pieces, (∀ key, Piece.slot key ∈ pieces → IsCommonKey key) →
      substituted ((g.withSettings settings).documentValues methods) pieces = common pieces :=
    fun pieces hkeys => substituted_congr fun key hkey =>
      lookup_withSettings hmodules (hkeys key hkey)
  have hsource : ((g.withSettings settings).documentOf methods).source
      = substituted ((g.withSettings settings).documentValues methods)
          Template.actions.pieces := rfl
  rw [hsource, hpieces, substituted_append, substituted, substituted_append, substituted,
    substituted, hsame front fun key hkey => hcommon key (.inl hkey),
    hsame middle fun key hkey => hcommon key (.inr (.inl hkey)),
    hsame back fun key hkey => hcommon key (.inr (.inr hkey)), lookup_namespace, lookup_name]
  have htrait : "\n\ntrait ".toList = "\n\ntrait".toList ++ [' '] := rfl
  simp only [Option.getD_some, String.toList_append, htrait, List.append_assoc, List.cons_append,
    List.nil_append]
  rfl

/-- A source ends in a brace. -/
theorem getLast?_source (g : Generator) (methods : List String) :
    (g.documentOf methods).source.toList.getLast? = some '\x7d' := by
  have hpieces : Template.actions.pieces
      = Template.actions.pieces.dropLast ++ [.text "\n\x7d"] := by
    simp [Template.actions]
  have hsource : ∃ before : String, (g.documentOf methods).source = before ++ "\n\x7d" := by
    refine ⟨substituted (g.documentValues methods) Template.actions.pieces.dropLast, ?_⟩
    show substituted (g.documentValues methods) Template.actions.pieces = _
    conv_lhs => rw [hpieces, substituted_append]
    rfl
  obtain ⟨before, hbefore⟩ := hsource
  rw [hbefore, String.toList_append, List.getLast?_append]
  rfl

end Source

/-! ## The file -/

theorem contents_documentOf (g : Generator) (methods : List String) :
    (g.documentOf methods).contents = ((g.documentOf methods).source ++ "\n").toUTF8 := by
  unfold Document.contents Artifact.withFinalBreak
  rw [getLast?_source, if_neg (by decide)]

theorem contents_inj {other : Generator} {others : List String} :
    (g.documentOf methods).contents = (other.documentOf others).contents ↔
      (g.documentOf methods).source = (other.documentOf others).source := by
  rw [contents_documentOf, contents_documentOf, Text.toUTF8_inj, ← String.toList_inj,
    ← String.toList_inj, String.toList_append, String.toList_append, List.append_cancel_right_eq]

theorem qualifier_inj {a b : String} (h : qualifier a = qualifier b) : a = b := by
  have hnone : ∀ s : String, "" ≠ s ++ "\\" := by
    intro s hs
    simpa using congrArg String.toList hs
  unfold qualifier at h
  split at h <;> split at h
  · next ha hb => rw [String.isEmpty_iff.mp ha, String.isEmpty_iff.mp hb]
  · exact absurd h (hnone b)
  · exact absurd h.symm (hnone a)
  · rw [← String.toList_inj, String.toList_append, String.toList_append,
      List.append_cancel_right_eq] at h
    exact String.toList_inj.mp h

/-- **The same file is written under other settings when the name of the class is the same, and the
namespace but for separators at its end.** Names have no blanks in them. -/
theorem contents_withSettings_inj (hmodules : settings.modules = g.settings.modules)
    (hname : ' ' ∉ g.settings.className.toList) (hother : ' ' ∉ settings.className.toList) :
    (g.documentOf methods).contents = ((g.withSettings settings).documentOf methods).contents ↔
      settings.className = g.settings.className ∧
        withoutSeparators settings.nspace = withoutSeparators g.settings.nspace := by
  obtain ⟨front, middle, back, hsource⟩ := exists_source_withSettings g methods
  have hg := hsource g.settings rfl
  rw [contents_inj, ← String.toList_inj, hsource settings hmodules]
  show ((g.withSettings g.settings).documentOf methods).source.toList = _ ↔ _
  rw [hg, List.append_cancel_left_eq, List.append_cancel_right_eq]
  constructor
  · intro h
    obtain ⟨hfront, hclass⟩ := Text.append_cons_inj hname hother h
    exact ⟨(String.toList_inj.mp hclass).symm, (qualifier_inj (String.toList_inj.mp
      (List.append_cancel_right hfront))).symm⟩
  · rintro ⟨hclass, hnspace⟩
    rw [hclass, hnspace]

end Generator

end TestActor
