import Parq.Data.Arrow
import Parq.Data.Json

/-!
# Errors

`ParqError` is the error enumeration of the tool.  The functions return
`anyhow::Error`, which carries either one of these or, where `?` is applied to a
foreign result, the foreign error itself.
-/

namespace Parq.Data

/-- `parq_error::ParqError`. -/
inductive ParqError
  | io (message : String)
  | jsonParse (line : Nat) (source : JsonError)
  | insufficientData (rows : Nat)
  | typeMismatch (field expected found : String) (line : Nat)
  | arrow (source : ArrowError)
  | parquet (message : String)
  | config (message : String)
  deriving DecidableEq

/-- `anyhow::Error`, by the type of the error it was made from. -/
inductive Error
  | parq (source : ParqError)
  | json (source : JsonError)
  | arrow (source : ArrowError)
  | io (message : String)
  | parquet (message : String)
  deriving DecidableEq

namespace Error

/-- `ParqError::JsonParse` as an `anyhow::Error`. -/
abbrev jsonParse (line : Nat) (source : JsonError) : Error :=
  .parq (.jsonParse line source)

/-- `ParqError::TypeMismatch` as an `anyhow::Error`. -/
abbrev typeMismatch (field expected found : String) (line : Nat) : Error :=
  .parq (.typeMismatch field expected found line)

/-- `ParqError::InsufficientData` as an `anyhow::Error`. -/
abbrev insufficientData (rows : Nat) : Error :=
  .parq (.insufficientData rows)

end Error

end Parq.Data
