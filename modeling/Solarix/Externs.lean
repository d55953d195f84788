import Mathlib.Data.List.Basic
import Solarix.Json

/-!
# Third-party functions

What the program calls in crates that are not part of the repository.  Only the
documented behaviour that the code relies on is recorded.
-/

namespace Solarix

structure Externs where
  /-- `Sha256::digest`. -/
  sha256 : List UInt8 → List UInt8
  sha256_length : ∀ bytes, (sha256 bytes).length = 32
  /-- `bs58::encode(..).into_string()`. -/
  bs58Encode : List UInt8 → String
  /-- `bs58::decode(..).into_vec()`, with the text of its error. -/
  bs58Decode : String → Except String (List UInt8)
  /-- The text of the `Utf8Error` for bytes that are not UTF-8. -/
  utf8Error : List UInt8 → String
  /-- The text of `serde_json`'s error for a value of the wrong shape. -/
  serdeError : Json → String

/-- For inputs on which no hash is computed and the only base58 text is the empty one. -/
def Externs.minimal : Externs where
  sha256 _ := List.replicate 32 0
  sha256_length _ := List.length_replicate
  bs58Encode _ := ""
  bs58Decode _ := .ok []
  utf8Error _ := ""
  serdeError _ := ""

/-- `StatusCode::is_success`. -/
def isSuccess (status : Nat) : Bool := 200 ≤ status && status < 300

/-- `StatusCode::is_client_error`. -/
def isClientError (status : Nat) : Bool := 400 ≤ status && status < 500

end Solarix
