import RequestForms.Request.Checked

/-!
# Values that are accepted together

Parts that are checked side by side are accepted if each of them is, and the complaints about them
do not depend on what was accepted.
-/

namespace RequestForms.Checked

variable {α β : Type}

theorem map_eq_accepted_iff {f : α → β} {x : Checked α} {value : β} :
    f <$> x = accepted value ↔ ∃ a, x = accepted a ∧ f a = value := by
  cases x with
  | accepted a => simp [Functor.map, map]
  | refused complaints => simp [Functor.map, map]

theorem seq_eq_accepted_iff {f : Checked (α → β)} {x : Checked α} {value : β} :
    f <*> x = accepted value ↔ ∃ g a, f = accepted g ∧ x = accepted a ∧ g a = value := by
  cases f <;> cases x <;> simp [Seq.seq, seq]

theorem text_eq_accepted_iff {path : List String} {given : Json} {text : String} :
    Checked.text path given = accepted text ↔ given = .string text := by
  cases given <;> simp [Checked.text, refuse]

theorem optionalText_eq_accepted_iff {path : List String} {given : Json}
    {content : Option String} :
    optionalText path given = accepted content ↔ given = content.elim .null .string := by
  cases given with
  | null => cases content <;> simp [optionalText]
  | string text =>
      rw [optionalText, map_eq_accepted_iff]
      · cases content <;> simp [Checked.text]
      · simp
  | _ => cases content <;> simp [optionalText, Checked.text, refuse, Functor.map, map]

/-! ## The same complaints -/

/-- Both values are accepted, or both are refused with the same complaints. -/
inductive SameVerdict : Checked α → Checked β → Prop
  | accepted (a : α) (b : β) : SameVerdict (accepted a) (accepted b)
  | refused (complaints : List Complaint) : SameVerdict (refused complaints) (refused complaints)

theorem SameVerdict.refl (x : Checked α) : SameVerdict x x := by
  cases x with
  | accepted a => exact .accepted a a
  | refused complaints => exact .refused complaints

theorem SameVerdict.seq {f g : Checked (α → β)} {x y : Checked α} (hf : SameVerdict f g)
    (hx : SameVerdict x y) : SameVerdict (f <*> x) (g <*> y) := by
  cases hf with
  | accepted f g =>
      cases hx with
      | accepted a b => exact .accepted (f a) (g b)
      | refused complaints => exact .refused complaints
  | refused first =>
      cases hx with
      | accepted a b => exact .refused first
      | refused complaints => exact .refused (first ++ complaints)

end RequestForms.Checked
