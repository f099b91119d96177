import Parq.Flatten.Names

/-!
# Flat objects

What `flatten_object` returns has no object and no array among its values, whatever the
separator.  A second pass finds every member at the top level, where the name is the key
itself, and puts all of them back in their order.
-/

namespace Parq.Flatten

open Parq.Data
open Parq.Sequence

/-- The value is neither an array nor an object. -/
def IsScalar : Value → Prop
  | .array _ | .object _ => False
  | _ => True

/-- All values of a map are scalars. -/
def AllScalar (obj : Map) : Prop :=
  ∀ entry ∈ obj, IsScalar entry.2

/-! ## Only scalars are inserted -/

theorem AllScalar.insert {out : Map} (scalars : AllScalar out) (key : String) {value : Value}
    (scalar : IsScalar value) : AllScalar (out.insert key value) := by
  intro entry mem
  rcases mem_of_mem_insertKey mem with rfl | there
  · exact scalar
  · exact scalars entry there

section Passes

variable {J : SerdeJson} {sep : String}

mutual

/-- The recursion keeps the map that it fills free of arrays and objects. -/
theorem allScalar_flattenRec : ∀ (obj : List (String × Value)) (pre : String) {out : Map},
    AllScalar out → AllScalar (flattenRec J sep obj pre out)
  | [], _, _, scalars => scalars
  | member :: rest, pre, _, scalars =>
      allScalar_flattenRec rest pre (allScalar_flattenMember member pre scalars)

theorem allScalar_flattenMember : ∀ (member : String × Value) (pre : String) {out : Map},
    AllScalar out → AllScalar (flattenMember J sep member pre out)
  | (key, value), pre, _, scalars => allScalar_flattenValue value (joinKey sep pre key) scalars

theorem allScalar_flattenValue : ∀ (value : Value) (full : String) {out : Map},
    AllScalar out → AllScalar (flattenValue J sep value full out)
  | .object nested, full, _, scalars => allScalar_flattenRec nested full scalars
  | .array _, full, _, scalars => scalars.insert full trivial
  | .null, full, _, scalars => scalars.insert full trivial
  | .bool _, full, _, scalars => scalars.insert full trivial
  | .number _, full, _, scalars => scalars.insert full trivial
  | .string _, full, _, scalars => scalars.insert full trivial

end

theorem allScalar_flattenObject (obj : Map) : AllScalar (flattenObject J obj sep) :=
  allScalar_flattenRec obj "" (fun _ mem => absurd mem List.not_mem_nil)

/-! ## A pass over scalars -/

/-- A scalar member is its own leaf, stored under its key. -/
theorem writes_memberLeaves {entry : String × Value} (scalar : IsScalar entry.2) :
    writes J sep "" (memberLeaves entry) = [entry] := by
  rcases entry with ⟨key, value⟩
  cases value with
  | array items => exact absurd scalar id
  | object nested => exact absurd scalar id
  | _ => simp [writes, memberLeaves, valueLeaves, writtenName, joinKey, storedLeaf]

theorem writes_leavesOf {obj : Map} (scalars : AllScalar obj) :
    writes J sep "" (leavesOf obj) = obj := by
  induction obj with
  | nil => rfl
  | cons entry rest ih =>
      have own : IsScalar entry.2 := scalars entry List.mem_cons_self
      have others : AllScalar rest := fun other mem => scalars other (List.mem_cons_of_mem _ mem)
      calc
        writes J sep "" (leavesOf (entry :: rest)) =
            writes J sep "" (memberLeaves entry) ++ writes J sep "" (leavesOf rest) := by
          rw [leavesOf, writes, List.map_append]
          rfl
        _ = entry :: rest := by rw [writes_memberLeaves own, ih others, List.singleton_append]

/-- An object of scalars is returned as it is. -/
theorem flattenObject_eq_self {obj : Map} (sorted : obj.Sorted) (scalars : AllScalar obj) :
    flattenObject J obj sep = obj := by
  rw [flattenObject, flattenRec_eq, writes_leavesOf scalars]
  exact collect_eq_self sorted

end Passes

/-- Flattening leaves no array and no object, a second flattening changes nothing, whatever
the separators, and neither does one of an object of scalars. -/
theorem flattenObject_flat (J : SerdeJson) (obj : Map) (s t : String) :
    AllScalar (flattenObject J obj s) ∧
      flattenObject J (flattenObject J obj s) t = flattenObject J obj s ∧
      ∀ flat : Map, flat.Sorted → AllScalar flat → flattenObject J flat s = flat := by
  have scalars : AllScalar (flattenObject J obj s) := allScalar_flattenObject obj
  refine ⟨scalars, ?_, fun _ sorted flat => flattenObject_eq_self sorted flat⟩
  exact flattenObject_eq_self (sorted_flattenObject J s obj) scalars

end Parq.Flatten
