import TestActor.Generator
import TestActor.Proofs.JsonText

/-!
# What a fingerprint tells

The version, the registry and the configured modules are hashed as one text with nothing between
the parts. The text determines the parts, so two fingerprints of different parts are the same only
if the first halves of two different digests are.

## Main definition

* `Generator.subject`: the text that the fingerprint of a generator is taken of.

## Main statements

* `Fingerprint.subject_inj`: the hashed text determines the parts.
* `Fingerprint.uniquely_decodable`: the same of its bytes, and when two fingerprints are the same.
-/

namespace TestActor

/-! ## Bytes -/

theorem Text.hexByte_inj {a b : UInt8} (h : hexByte a = hexByte b) : a = b := by
  have hdigit : ∀ {m n : Nat}, m < 16 → n < 16 → hexDigit m = hexDigit n → m = n := by
    intro m n hm hn he
    refine Option.some.inj ?_
    rw [← hexValue?_hexDigit hm, ← hexValue?_hexDigit hn, he]
  have ha := a.toNat_lt
  have hb := b.toNat_lt
  obtain ⟨hhigh, hlow⟩ := List.cons.inj h
  have hdiv : a.toNat / 16 = b.toNat / 16 := hdigit (by omega) (by omega) hhigh
  have hmod : a.toNat % 16 = b.toNat % 16 := hdigit (by omega) (by omega) (List.cons.inj hlow).1
  exact UInt8.toNat_inj.mp (by omega)

/-- **Digits determine the bytes they are written for.** -/
theorem Text.hexBytes_inj {s t : List UInt8} (h : hexBytes s = hexBytes t) : s = t := by
  unfold hexBytes at h
  induction s generalizing t with
  | nil =>
    cases t with
    | nil => rfl
    | cons b t => cases h
  | cons a s ih =>
    cases t with
    | nil => cases h
    | cons b t =>
      rw [List.flatMap_cons, List.flatMap_cons] at h
      -- every byte has two digits, so both lists split at the same point
      obtain ⟨hfirst, hrest⟩ := List.append_inj h rfl
      rw [Text.hexByte_inj hfirst, ih hrest]

theorem Text.loop_toList (bytes : ByteArray) (i : Nat) (listed : List UInt8) :
    ByteArray.toList.loop bytes i listed = listed.reverse ++ bytes.data.toList.drop i := by
  fun_induction ByteArray.toList.loop bytes i listed with
  | case1 i listed hi ih =>
    have hlength : i < bytes.data.toList.length := by simpa using hi
    have hget : bytes.get! i = bytes.data.toList[i] := by simp [ByteArray.get!, hi]
    rw [ih, List.reverse_cons, List.append_assoc, hget, List.singleton_append,
      ← List.drop_eq_getElem_cons hlength]
  | case2 i listed hi =>
    have hlength : bytes.data.toList.length ≤ i := by simpa using hi
    rw [List.drop_eq_nil_of_le hlength, List.append_nil]

theorem Text.toUTF8_inj {s t : String} : s.toUTF8 = t.toUTF8 ↔ s = t := by
  rw [String.toUTF8_eq_toByteArray, String.toUTF8_eq_toByteArray]
  exact String.toByteArray_inj

/-- The listed bytes of a text determine the text. -/
theorem Text.toList_toUTF8_inj {s t : String} : s.toUTF8.toList = t.toUTF8.toList ↔ s = t := by
  rw [ByteArray.toList, ByteArray.toList, Text.loop_toList, Text.loop_toList]
  show s.toUTF8.data.toList = t.toUTF8.data.toList ↔ s = t
  rw [Array.toList_inj, ← Text.toUTF8_inj]
  exact ByteArray.ext_iff.symm

namespace Fingerprint

variable {v₁ v₂ : String} {r₁ r₂ : ActionRegistry} {m₁ m₂ : List String}

theorem toList_subject (version : String) (actions : ActionRegistry) (modules : List String) :
    (subject version actions modules).toList
      = version.toList ++ Json.ofPairs actions.entries ++ Json.ofStrings modules := by
  simp [subject, ActionRegistry.json]

/-- **The hashed text determines its parts.** The modules are taken off from the end, then the
registry. -/
theorem subject_inj (h : subject v₁ r₁ m₁ = subject v₂ r₂ m₂) :
    v₁ = v₂ ∧ r₁.entries = r₂.entries ∧ m₁ = m₂ := by
  have htext := congrArg String.toList h
  rw [toList_subject, toList_subject] at htext
  obtain ⟨hfront, hmodules⟩ := Json.append_ofStrings_inj htext
  obtain ⟨hversion, hentries⟩ := Json.append_ofPairs_inj hfront
  exact ⟨String.toList_inj.mp hversion, hentries, hmodules⟩

theorem subject_eq_iff :
    subject v₁ r₁ m₁ = subject v₂ r₂ m₂ ↔ v₁ = v₂ ∧ r₁.entries = r₂.entries ∧ m₁ = m₂ := by
  refine ⟨subject_inj, ?_⟩
  rintro ⟨rfl, hentries, rfl⟩
  unfold subject ActionRegistry.json
  rw [hentries]

theorem ofText_eq_iff {s t : String} :
    ofText s = ofText t ↔
      (Sha256.digest s.toUTF8.toList).take 16 = (Sha256.digest t.toUTF8.toList).take 16 := by
  constructor
  · intro h
    refine Text.hexBytes_inj ?_
    rw [← String.ofList_inj]
    exact h
  · intro h
    unfold ofText
    rw [h]

/-- **The hashed text determines its parts, as characters and as bytes**, so a fingerprint is shared
by different parts only when the first sixteen bytes of the digests of two different texts are the
same. -/
theorem uniquely_decodable (v₁ v₂ : String) (r₁ r₂ : ActionRegistry) (m₁ m₂ : List String) :
    (subject v₁ r₁ m₁ = subject v₂ r₂ m₂ ↔ v₁ = v₂ ∧ r₁.entries = r₂.entries ∧ m₁ = m₂) ∧
    ((subject v₁ r₁ m₁).toUTF8 = (subject v₂ r₂ m₂).toUTF8 ↔
      v₁ = v₂ ∧ r₁.entries = r₂.entries ∧ m₁ = m₂) ∧
    (compute v₁ r₁ m₁ = compute v₂ r₂ m₂ ↔
      (v₁ = v₂ ∧ r₁.entries = r₂.entries ∧ m₁ = m₂) ∨
      ((subject v₁ r₁ m₁).toUTF8.toList ≠ (subject v₂ r₂ m₂).toUTF8.toList ∧
        (Sha256.digest (subject v₁ r₁ m₁).toUTF8.toList).take 16
          = (Sha256.digest (subject v₂ r₂ m₂).toUTF8.toList).take 16)) := by
  refine ⟨subject_eq_iff, ?_, ?_⟩
  · rw [Text.toUTF8_inj]
    exact subject_eq_iff
  · unfold compute
    rw [ofText_eq_iff, ← subject_eq_iff, ne_eq, Text.toList_toUTF8_inj]
    by_cases h : subject v₁ r₁ m₁ = subject v₂ r₂ m₂
    · rw [h]
      exact iff_of_true rfl (.inl rfl)
    · exact ⟨fun hdigest => .inr ⟨h, hdigest⟩, fun hboth => (hboth.resolve_left h).2⟩

end Fingerprint

/-- The text that the fingerprint of a generator is taken of. -/
def Generator.subject (g : Generator) : String :=
  Fingerprint.subject g.version g.actions g.settings.modules

end TestActor
