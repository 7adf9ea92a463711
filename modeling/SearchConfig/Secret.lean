import SearchConfig.Json.Printer
import SearchConfig.Text.Basic

/-!
# Secrets

A secret keeps the bytes of a JSON value and never gives them away: written, it is the empty object,
and shown, it is a mask that tells only whether there are bytes at all. What is captured from a JSON
value is its canonical form, the compact text with one entry for each key.
-/

namespace SearchConfig

structure Secret where
  payload : ByteArray
  deriving Inhabited

namespace Secret

theorem ext_data {s t : Secret} (h : s.payload.data = t.payload.data) : s = t :=
  congrArg mk (ByteArray.ext h)

/-- Secrets are equal if their bytes are. -/
instance : DecidableEq Secret := fun s t =>
  decidable_of_iff (s.payload.data = t.payload.data) ⟨ext_data, fun h => h ▸ rfl⟩

/-- Captures a JSON value in its canonical form. -/
def ofJson (v : Json) : Secret := ⟨v.collapse.toBytes⟩

/-- The written form of every secret. -/
def masked : Json := .object []

/-- What is shown of a secret by whether its payload is empty. -/
def mask (isEmpty : Bool) : Text :=
  if isEmpty then "SecretMessage('')" else "SecretMessage('**********')"

def shown (s : Secret) : Text := mask s.payload.isEmpty

end Secret

end SearchConfig
