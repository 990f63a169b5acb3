import RequestForms.Request.Basic

/-!
# What a request has to say

A body that is empty is no content, and a call without options says nothing but an address.
-/

namespace RequestForms.Request

variable {request : Request}

theorem content_eq_some_iff {body : String} :
    request.content = some body ↔ request.body = some body ∧ body ≠ "" := by
  simp [content, Option.filter_eq_some_iff]

theorem content_eq_body (h : request.body ≠ some "") : request.content = request.body := by
  rw [content]
  cases hb : request.body with
  | none => rfl
  | some body =>
      have hne : body ≠ "" := fun he => h (by rw [hb, he])
      simp [hne]

/-! ## Without options -/

section NoOptions

variable (h : request.hasOptions = false)

include h

theorem name_eq_get_of_hasOptions : request.method.name = "GET" := by
  simp only [hasOptions, Bool.or_eq_false_iff, bne_eq_false_iff_eq] at h
  exact h.1.1.1

theorem entries_eq_nil_of_hasOptions : request.headers.entries = [] := by
  simp only [hasOptions, Bool.or_eq_false_iff, Bool.not_eq_false', Headers.isEmpty,
    List.isEmpty_iff] at h
  exact h.1.1.2

theorem content_eq_none_of_hasOptions : request.content = none := by
  simp only [hasOptions, Bool.or_eq_false_iff, Option.isSome_eq_false_iff,
    Option.isNone_iff_eq_none] at h
  exact h.1.2

theorem credentials_eq_none_of_hasOptions : request.credentials = none := by
  simp only [hasOptions, Bool.or_eq_false_iff, Option.isSome_eq_false_iff,
    Option.isNone_iff_eq_none] at h
  exact h.2

end NoOptions

theorem hasOptions_of_content {body : String} (h : request.content = some body) :
    request.hasOptions = true := by
  cases hoptions : request.hasOptions with
  | true => rfl
  | false => exact absurd (content_eq_none_of_hasOptions hoptions) (by simp [h])

/-! ## Saying the same -/

/-- Two requests that differ in nothing but how they are sent. -/
structure SaysTheSame (a b : Request) : Prop where
  method : a.method = b.method
  url : a.url = b.url
  headers : a.headers = b.headers
  body : a.body = b.body
  credentials : a.credentials = b.credentials

theorem SaysTheSame.trans {a b c : Request} (hab : SaysTheSame a b) (hbc : SaysTheSame b c) :
    SaysTheSame a c where
  method := hab.method.trans hbc.method
  url := hab.url.trans hbc.url
  headers := hab.headers.trans hbc.headers
  body := hab.body.trans hbc.body
  credentials := hab.credentials.trans hbc.credentials

end RequestForms.Request
