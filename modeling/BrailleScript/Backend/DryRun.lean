import BrailleScript.Backend
import BrailleScript.Backend.Similarity
import BrailleScript.Digest.Sha256
import BrailleScript.Text.Shorten

/-!
# The dry-run backend

Answers without a model: a preview of the prompt, and vectors made from digests.
-/

namespace BrailleScript.Backend

/-- How many characters of a prompt an answer shows. -/
def previewLength : Nat := 48

/-- The preview of a prompt. -/
def dryAnswer (prompt model : String) : String :=
  "[dry-run:" ++ model ++ "] " ++ Text.shorten previewLength prompt

/-- A vector of length one with the direction that the eight words of a text's digest give. -/
def dryVector (text : String) : List Float :=
  let raw := (Digest.sha256Words text.toUTF8.toList).map fun word =>
    word.toFloat / 4294967295 - 0.5
  let length := norm raw
  if length == 0 then raw else raw.map (· / length)

/-- A backend that needs no service: its answers and vectors are computed from the digest of the
request. -/
def dryRun (model : String) (maxTokens : Nat) : Backend where
  name := "dry-run"
  model := model
  maxTokens := maxTokens
  infer _ prompt model _ := .ok (dryAnswer prompt model)
  embed _ text := .ok (dryVector text)

end BrailleScript.Backend
