import RequestForms.Json.Basic

/-!
# Comparing JSON values

Values are the same if they are written alike, down to the order of the members of an object.
-/

namespace RequestForms.Json

mutual

def same : Json → Json → Bool
  | null, null => true
  | bool a, bool b => a == b
  | int a, int b => a == b
  | double a, double b => decide (a = b)
  | string a, string b => a == b
  | array a, array b => sameElements a b
  | object a, object b => sameMembers a b
  | _, _ => false

def sameElements : List Json → List Json → Bool
  | [], [] => true
  | a :: as, b :: bs => same a b && sameElements as bs
  | _, _ => false

def sameMembers : List (String × Json) → List (String × Json) → Bool
  | [], [] => true
  | (name, a) :: as, (name', b) :: bs => name == name' && (same a b && sameMembers as bs)
  | _, _ => false

end

mutual

theorem eq_of_same : ∀ {a b : Json}, same a b = true → a = b
  | null, b, h => by cases b <;> simp_all [same]
  | bool a, b, h => by cases b <;> simp_all [same]
  | int a, b, h => by cases b <;> simp_all [same]
  | double a, b, h => by cases b <;> simp_all [same]
  | string a, b, h => by cases b <;> simp_all [same]
  | array as, array bs, h => by rw [eq_of_sameElements h]
  | object as, object bs, h => by rw [eq_of_sameMembers h]

theorem eq_of_sameElements : ∀ {as bs : List Json}, sameElements as bs = true → as = bs
  | [], [], _ => rfl
  | a :: as, b :: bs, h => by
      obtain ⟨hfirst, hrest⟩ := Bool.and_eq_true_iff.1 h
      rw [eq_of_same hfirst, eq_of_sameElements hrest]

theorem eq_of_sameMembers : ∀ {as bs : List (String × Json)}, sameMembers as bs = true → as = bs
  | [], [], _ => rfl
  | (name, a) :: as, (name', b) :: bs, h => by
      obtain ⟨hname, h⟩ := Bool.and_eq_true_iff.1 h
      obtain ⟨hfirst, hrest⟩ := Bool.and_eq_true_iff.1 h
      rw [eq_of_beq hname, eq_of_same hfirst, eq_of_sameMembers hrest]

end

mutual

theorem same_self : ∀ a : Json, same a a = true
  | null => rfl
  | bool a => beq_self_eq_true a
  | int a => beq_self_eq_true a
  | double _ => decide_eq_true rfl
  | string a => beq_self_eq_true a
  | array as => sameElements_self as
  | object as => sameMembers_self as

theorem sameElements_self : ∀ as : List Json, sameElements as as = true
  | [] => rfl
  | a :: as => by rw [sameElements, same_self a, sameElements_self as]; rfl

theorem sameMembers_self : ∀ as : List (String × Json), sameMembers as as = true
  | [] => rfl
  | (name, a) :: as => by
      rw [sameMembers, beq_self_eq_true, same_self a, sameMembers_self as]
      rfl

end

instance : DecidableEq Json := fun a b =>
  decidable_of_iff (same a b = true) ⟨eq_of_same, fun h => h ▸ same_self a⟩

end RequestForms.Json
