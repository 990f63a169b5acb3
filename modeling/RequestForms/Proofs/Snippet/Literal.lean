import RequestForms.Proofs.Json.Document
import RequestForms.Proofs.Snippet.Pattern
import RequestForms.Request.Basic

/-!
# Bodies in calls

A body that is JSON stands in a call without the blanks around it. An object without objects inside
is found again there by its braces.
-/

namespace RequestForms.Snippet

theorem toList_quote (s : String) : (quote s).toList = quoteChars s.toList := by
  rw [quote, String.toList_ofList]

theorem jsonLiteral?_eq_some_iff {body literal : String} :
    jsonLiteral? body = some literal ↔
      (∃ found, Json.read body = .ok found) ∧ literal = Text.trim body := by
  unfold jsonLiteral?
  split
  · next found hread => simp [hread, eq_comm]
  · next failure hread => simp [hread]

theorem ne_empty_of_jsonLiteral? {body literal : String} (h : jsonLiteral? body = some literal) :
    literal ≠ "" := by
  obtain ⟨⟨found, hread⟩, rfl⟩ := jsonLiteral?_eq_some_iff.1 h
  intro hempty
  apply Json.strip_ne_nil_of_read hread
  rw [← Text.toList_trim, hempty]
  rfl

/-- Something is left of all JSON. -/
theorem bodyLiteral_eq_getD (body : String) :
    bodyLiteral body = (jsonLiteral? body).getD (quote body) := by
  rw [bodyLiteral]
  cases hliteral : jsonLiteral? body with
  | none => rfl
  | some literal =>
      rw [Option.filter_some, if_pos (decide_eq_true (ne_empty_of_jsonLiteral? hliteral))]

theorem trim_of_jsonLiteral? {body literal : String} (h : jsonLiteral? body = some literal) :
    Text.trim literal = literal := by
  obtain ⟨-, rfl⟩ := jsonLiteral?_eq_some_iff.1 h
  rw [Text.trim_eq_self_iff, Text.toList_trim, Text.strip_strip]

theorem isInfix_of_jsonLiteral? {body literal : String} (h : jsonLiteral? body = some literal) :
    literal.toList <:+: body.toList := by
  obtain ⟨-, rfl⟩ := jsonLiteral?_eq_some_iff.1 h
  rw [Text.toList_trim]
  exact Text.strip_isInfix body.toList

/-- The body that a call says: none if it is empty, and JSON without the blanks around it. -/
def callBody (request : Request) : Option String :=
  request.content.map fun body => (jsonLiteral? body).getD body

/-! ## Objects -/

def holdsObject (text : String) : Bool :=
  match Json.read text with
  | .ok (.object _) => true
  | _ => false

theorem holdsObject_iff {text : String} :
    holdsObject text = true ↔ ∃ members, Json.read text = .ok (.object members) := by
  unfold holdsObject
  split
  · next members hread => exact iff_of_true rfl ⟨members, hread⟩
  · next hread =>
      apply iff_of_false (by decide)
      rintro ⟨members, h⟩
      exact hread members h

instance (text : String) : Decidable (∃ members, Json.read text = .ok (.object members)) :=
  decidable_of_iff _ holdsObject_iff

/-- The text of an object that has something between its braces and closes no other brace there.
Blanks may stand around it. -/
@[mk_iff] structure ClosesOnce (text : String) : Prop where
  object : ∃ members, Json.read text = .ok (.object members)
  one_closing : (Text.trim text).toList.count '\x7d' = 1
  ne_empty_object : Text.trim text ≠ "\x7b\x7d"

instance (text : String) : Decidable (ClosesOnce text) :=
  decidable_of_iff _ (closesOnce_iff text).symm

/-- Such an object that opens no other brace either, and no parenthesis. -/
@[mk_iff] structure HoldsFlatObject (text : String) : Prop extends ClosesOnce text where
  one_opening : (Text.trim text).toList.count '\x7b' = 1
  no_opening_paren : '(' ∉ (Text.trim text).toList

instance (text : String) : Decidable (HoldsFlatObject text) :=
  decidable_of_iff _ (holdsFlatObject_iff text).symm

/-- The text of an object that holds no braces but its own, no parentheses, and something. -/
@[mk_iff] structure IsFlatObject (text : String) : Prop where
  object : ∃ members, Json.read text = .ok (.object members)
  trimmed : Text.trim text = text
  one_opening : text.toList.count '\x7b' = 1
  one_closing : text.toList.count '\x7d' = 1
  no_opening_paren : '(' ∉ text.toList
  no_closing_paren : ')' ∉ text.toList
  ne_empty_object : text ≠ "\x7b\x7d"

instance (text : String) : Decidable (IsFlatObject text) :=
  decidable_of_iff _ (isFlatObject_iff text).symm

namespace ClosesOnce

variable {text : String}

theorem jsonLiteral?_eq (h : ClosesOnce text) : jsonLiteral? text = some (Text.trim text) := by
  obtain ⟨members, hread⟩ := h.object
  exact jsonLiteral?_eq_some_iff.2 ⟨⟨_, hread⟩, rfl⟩

theorem exists_inside (h : ClosesOnce text) :
    ∃ inside, (Text.trim text).toList = '\x7b' :: (inside ++ ['\x7d']) ∧ inside ≠ [] ∧
      '\x7d' ∉ inside := by
  obtain ⟨members, hread⟩ := h.object
  obtain ⟨inside, hinside⟩ := Json.exists_strip_of_read_eq_object hread
  rw [← Text.toList_trim] at hinside
  have hclosing : inside.count '\x7d' = 0 := by
    have hcount := h.one_closing
    rw [hinside, List.count_cons, List.count_append] at hcount
    simpa using hcount
  refine ⟨inside, hinside, ?_, List.count_eq_zero.1 hclosing⟩
  rintro rfl
  apply h.ne_empty_object
  rw [← String.toList_inj, hinside]
  rfl

/-- What goes from an opening brace to the next closing one is such an object if it is JSON. -/
theorem of_inside {found : Json} {inside : List Char} (hread : Json.read text = .ok found)
    (htext : (Text.trim text).toList = '\x7b' :: (inside ++ ['\x7d'])) (hne : inside ≠ [])
    (hclosing : '\x7d' ∉ inside) : ClosesOnce text where
  object := by
    obtain ⟨members, rfl⟩ := Json.exists_object_of_head?_strip hread (by
      rw [← Text.toList_trim, htext]
      rfl)
    exact ⟨members, hread⟩
  one_closing := by
    rw [htext, List.count_cons, List.count_append, List.count_eq_zero.2 hclosing]
    rfl
  ne_empty_object := by
    intro hempty
    rw [hempty] at htext
    apply hne
    simpa using htext

end ClosesOnce

namespace HoldsFlatObject

variable {text : String}

/-- Between its braces the object has no brace. -/
theorem exists_inside (h : HoldsFlatObject text) :
    ∃ inside, (Text.trim text).toList = '\x7b' :: (inside ++ ['\x7d']) ∧ inside ≠ [] ∧
      '\x7b' ∉ inside ∧ '\x7d' ∉ inside := by
  obtain ⟨inside, hinside, hne, hclosing⟩ := h.toClosesOnce.exists_inside
  have hopening : inside.count '\x7b' = 0 := by
    have hcount := h.one_opening
    rw [hinside, List.count_cons, List.count_append] at hcount
    simpa using hcount
  exact ⟨inside, hinside, hne, List.count_eq_zero.1 hopening, hclosing⟩

end HoldsFlatObject

namespace IsFlatObject

variable {text : String}

theorem holdsFlatObject (h : IsFlatObject text) : HoldsFlatObject text where
  object := h.object
  one_closing := by rw [h.trimmed, h.one_closing]
  ne_empty_object := by
    rw [h.trimmed]
    exact h.ne_empty_object
  one_opening := by rw [h.trimmed, h.one_opening]
  no_opening_paren := by
    rw [h.trimmed]
    exact h.no_opening_paren

theorem jsonLiteral?_eq (h : IsFlatObject text) : jsonLiteral? text = some text := by
  rw [h.holdsFlatObject.jsonLiteral?_eq, h.trimmed]

theorem ne_empty (h : IsFlatObject text) : text ≠ "" :=
  ne_empty_of_jsonLiteral? h.jsonLiteral?_eq

end IsFlatObject

/-- A body that every form keeps: a plain text that is not JSON, or an object without objects
inside. -/
def IsCommonBody (body : String) : Prop :=
  (IsPlain body ∧ jsonLiteral? body = none) ∨ IsFlatObject body

instance (body : String) : Decidable (IsCommonBody body) := inferInstanceAs (Decidable (_ ∨ _))

end RequestForms.Snippet
