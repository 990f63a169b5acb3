import RequestForms.Json.Basic
import RequestForms.Proofs.Assoc

/-!
# Changing the members of an object

A change of one member leaves the others as they are, and a member that is null is read as one that
is absent.
-/

namespace RequestForms.Json

/-- Changes a member of an object where it is present. -/
def modify (name : String) (f : Json → Json) : Json → Json
  | object members =>
      object (members.map fun entry => if entry.1 = name then (entry.1, f entry.2) else entry)
  | value => value

def onElements (f : List Json → List Json) : Json → Json
  | array elements => array (f elements)
  | value => value

def isNull : Json → Bool
  | null => true
  | _ => false

/-- An object without the members that are null. The value of a member is what its name stands
for. -/
def withoutNulls : Json → Json
  | object members =>
      object (members.filter fun entry => !((object members).member entry.1).isNull)
  | value => value

theorem member_of_member? {value found : Json} {name : String}
    (h : value.member? name = some found) : value.member name = found := by
  rw [member, h, Option.getD_some]

/-- Only an object has members. -/
theorem exists_object_of_member? {value found : Json} {name : String}
    (h : value.member? name = some found) : ∃ members, value = .object members := by
  cases value with
  | object members => exact ⟨members, rfl⟩
  | _ => cases h

theorem exists_object_of_member_ne_null {value : Json} {name : String}
    (h : value.member name ≠ .null) : ∃ members, value = .object members := by
  cases value with
  | object members => exact ⟨members, rfl⟩
  | _ => exact absurd rfl h

theorem isNull_eq_true_iff {value : Json} : value.isNull = true ↔ value = .null := by
  cases value <;> simp [isNull]

/-! ## One member -/

theorem member?_modify (name : String) (f : Json → Json) (value : Json) (other : String) :
    (value.modify name f).member? other =
      if other = name then (value.member? other).map f else value.member? other := by
  cases value with
  | object members => exact Assoc.lookup_map_if name f members other
  | _ => simp [modify, member?]

theorem member_modify {f : Json → Json} (hf : f .null = .null) (name other : String)
    (value : Json) : (value.modify name f).member other =
      if other = name then f (value.member other) else value.member other := by
  rw [member, member?_modify, member]
  split
  · cases value.member? other with
    | none => exact hf.symm
    | some found => rfl
  · rfl

theorem member_modify_of_ne {name other : String} (h : other ≠ name) (f : Json → Json)
    (value : Json) : (value.modify name f).member other = value.member other := by
  rw [member, member?_modify, if_neg h, member]

theorem member_modify_self {f : Json → Json} (hf : f .null = .null) (name : String)
    (value : Json) : (value.modify name f).member name = f (value.member name) := by
  rw [member_modify hf, if_pos rfl]

/-! ## Null members -/

theorem member?_withoutNulls (value : Json) (name : String) :
    value.withoutNulls.member? name = (value.member? name).filter fun found => !found.isNull := by
  cases value with
  | object members =>
      have hfilter := Assoc.lookup_filter (fun key => !((object members).member key).isNull)
        members name
      rw [withoutNulls, member?, hfilter, member, member?]
      cases members.lookup name with
      | none => simp
      | some found => cases hnull : found.isNull <;> simp [Option.filter_some, hnull]
  | _ => rfl

/-- A member that is null and one that is absent are read alike. -/
theorem member_withoutNulls (value : Json) (name : String) :
    value.withoutNulls.member name = value.member name := by
  rw [member, member?_withoutNulls, member]
  cases value.member? name with
  | none => rfl
  | some found =>
      cases hnull : found.isNull with
      | false => rw [Option.filter_some, hnull]; rfl
      | true => rw [isNull_eq_true_iff.1 hnull]; rfl

end RequestForms.Json
