import Parq.Data.Json

/-!
# Flattening nested objects

`flatten_object` writes every leaf of an object into one map under the path of
its keys joined by a separator.  The recursion threads the map that is being
filled through all branches; an array is a leaf and is stored as its JSON text.
-/

namespace Parq.Flatten

open Parq.Data

/-- The name of a member below `pre`: `flatten_rec` takes an empty prefix for the
top level. -/
def joinKey (sep pre key : String) : String :=
  if pre.isEmpty then key else pre ++ sep ++ key

mutual

/-- `flatten_rec`. -/
def flattenRec (J : SerdeJson) (sep : String) :
    (obj : List (String × Value)) → (pre : String) → (out : Map) → Map
  | [], _, out => out
  | member :: rest, pre, out => flattenRec J sep rest pre (flattenMember J sep member pre out)

/-- The body of the loop over the members. -/
def flattenMember (J : SerdeJson) (sep : String) :
    (member : String × Value) → (pre : String) → (out : Map) → Map
  | (key, value), pre, out => flattenValue J sep value (joinKey sep pre key) out

/-- The `match` on the value of a member. -/
def flattenValue (J : SerdeJson) (sep : String) :
    (value : Value) → (full : String) → (out : Map) → Map
  | .object nested, full, out => flattenRec J sep nested full out
  | .array items, full, out => out.insert full (.string (J.toText (.array items)))
  | .null, full, out => out.insert full .null
  | .bool b, full, out => out.insert full (.bool b)
  | .number n, full, out => out.insert full (.number n)
  | .string s, full, out => out.insert full (.string s)

end

/-- `flatten_object`. -/
def flattenObject (J : SerdeJson) (obj : Map) (separator : String) : Map :=
  flattenRec J separator obj "" []

end Parq.Flatten
