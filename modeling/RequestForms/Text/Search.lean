/-!
# Parts of a text

Words and other patterns inside a text, and cutting it at a character.
-/

namespace RequestForms.Text

def dropExact? (front : List Char) (s : List Char) : Option (List Char) :=
  if front.isPrefixOf s then some (s.drop front.length) else none

theorem dropExact?_eq_some_iff {front s rest : List Char} :
    dropExact? front s = some rest ↔ s = front ++ rest := by
  unfold dropExact?
  constructor
  · intro h
    split at h
    · next hp =>
        obtain ⟨t, rfl⟩ := List.isPrefixOf_iff_prefix.1 hp
        simpa using h
    · simp at h
  · rintro rfl
    simp [List.isPrefixOf_iff_prefix]

def occurs (word : List Char) : List Char → Bool
  | [] => word.isEmpty
  | c :: rest => word.isPrefixOf (c :: rest) || occurs word rest

/-- The first find of a pattern, which is tried from every character on and at the end. -/
def search? {α : Type} (pattern : List Char → Option α) : List Char → Option α
  | [] => pattern []
  | c :: rest =>
      match pattern (c :: rest) with
      | some found => some found
      | none => search? pattern rest

def splitFirst? (mark : Char) : List Char → Option (List Char × List Char)
  | [] => none
  | c :: rest =>
      if c = mark then some ([], rest)
      else (splitFirst? mark rest).map fun parts => (c :: parts.1, parts.2)

theorem eq_append_of_splitFirst? {mark : Char} {s before behind : List Char}
    (h : splitFirst? mark s = some (before, behind)) :
    s = before ++ mark :: behind ∧ mark ∉ before := by
  induction s generalizing before with
  | nil => simp [splitFirst?] at h
  | cons c rest ih =>
      rw [splitFirst?] at h
      split at h
      · next hc => simp_all
      · next hc =>
          obtain ⟨⟨b, r⟩, hr, hb⟩ := Option.map_eq_some_iff.1 h
          obtain ⟨rfl, rfl⟩ := Prod.mk.injEq .. ▸ hb
          obtain ⟨he, hn⟩ := ih hr
          refine ⟨by simp [he], ?_⟩
          simp only [List.mem_cons, not_or]
          exact ⟨fun e => hc e.symm, hn⟩

theorem splitFirst?_append {mark : Char} {before : List Char} (h : mark ∉ before)
    (behind : List Char) :
    splitFirst? mark (before ++ mark :: behind) = some (before, behind) := by
  induction before with
  | nil => simp [splitFirst?]
  | cons c rest ih =>
      simp only [List.mem_cons, not_or] at h
      have hc : ¬c = mark := fun e => h.1 e.symm
      simp [splitFirst?, hc, ih h.2]

end RequestForms.Text
