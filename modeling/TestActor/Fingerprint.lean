import TestActor.ActionRegistry
import TestActor.Digest.Sha256

/-!
# Fingerprints

A fingerprint tells whether a generated file is up to date. It is the first half of the digest of
the version, the registry and the configured modules, written one after the other.
-/

namespace TestActor.Fingerprint

/-- The text whose digest is taken. -/
def subject (version : String) (actions : ActionRegistry) (modules : List String) : String :=
  version ++ String.ofList actions.json ++ String.ofList (Json.ofStrings modules)

/-- The first sixteen bytes of the digest of a text, in hexadecimal. -/
def ofText (text : String) : String :=
  String.ofList (Text.hexBytes ((Sha256.digest text.toUTF8.toList).take 16))

/-- The fingerprint of a version, a registry and the configured modules. -/
def compute (version : String) (actions : ActionRegistry) (modules : List String) : String :=
  ofText (subject version actions modules)

/-- A fingerprint has thirty-two characters. -/
theorem length_toList_ofText (text : String) : (ofText text).toList.length = 32 := by
  rw [ofText, String.toList_ofList, Text.length_hexBytes, List.length_take, Sha256.length_digest]
  rfl

/-- A fingerprint consists of lower-case hexadecimal digits. -/
theorem all_isLowerHex_ofText (text : String) :
    (ofText text).toList.all Text.isLowerHex = true := by
  rw [ofText, String.toList_ofList]
  exact Text.all_isLowerHex_hexBytes _

end TestActor.Fingerprint
