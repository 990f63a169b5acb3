import RequestForms.Format
import RequestForms.Proofs.Json.Surroundings

/-!
# Recognised collections

A collection is recognised without the blanks around it, which may be those of any script, but it is
imported with them. JSON knows only four blanks, so a text can be recognised as a collection and be
no JSON.
-/

namespace RequestForms.InputFormat

/-- A text with nothing but blanks of JSON around it. -/
def IsSpacedAsJson (text : String) : Prop :=
  ∃ before after, text.toList = before ++ (Text.trim text).toList ++ after ∧
    ∀ c ∈ before ++ after, Json.isSpace c = true

/-- What is recognised as a collection is an object without the blanks around it. -/
theorem exists_members_of_detect? {text : String} (h : detect? text = some .postman) :
    ∃ members, Json.read (Text.trim text) = .ok (.object members) := by
  have hcollection : isCollection (Text.trim text) = true := by
    by_contra hnone
    rw [Bool.not_eq_true] at hnone
    unfold detect? at h
    simp only [hnone, Bool.false_eq_true, if_false] at h
    split at h
    · cases h
    · split at h
      · cases h
      · split at h <;> cases h
  unfold isCollection at hcollection
  split at hcollection
  · next members hread => exact ⟨members, hread⟩
  · cases hcollection

theorem read_eq_of_isSpacedAsJson {text : String} {found : Json}
    (h : Json.read (Text.trim text) = .ok found) (hspaced : IsSpacedAsJson text) :
    Json.read text = .ok found := by
  obtain ⟨before, after, htext, hspace⟩ := hspaced
  have hdocument := Json.document_surrounded_eq_ok (Json.document_eq_ok_of_read h)
    (fun c hc => Json.isBlank_of_isSpace (hspace c (List.mem_append_left after hc)))
    (fun c hc => Json.isBlank_of_isSpace (hspace c (List.mem_append_right before hc))) hspace
  rw [Json.read, htext, hdocument]
  rfl

theorem exists_read_eq_error_of_not_isSpacedAsJson {text : String} {found : Json}
    (h : Json.read (Text.trim text) = .ok found) (hspaced : ¬IsSpacedAsJson text) :
    ∃ fault place, Json.read text = .error (.malformed fault place) := by
  obtain ⟨before, after, hbefore, hafter, htext⟩ := Text.exists_blanks_around_strip text.toList
  rw [← Text.toList_trim] at htext
  have hspace : ¬∀ c ∈ before ++ after, Json.isSpace c = true := fun hspace =>
    hspaced ⟨before, after, htext, hspace⟩
  obtain ⟨fault, rest, hdocument⟩ := Json.exists_document_surrounded_eq_error
    (Json.document_eq_ok_of_read h) hbefore hafter hspace
  rw [← htext] at hdocument
  exact ⟨fault, _, by rw [Json.read, hdocument]; rfl⟩

/-- What is recognised as a collection is malformed for the import exactly if another blank than
those of JSON stands around it. Otherwise the blanks around it do not matter at all. -/
theorem read_ne_malformed_iff {text : String} (h : detect? text = some .postman) :
    ((∀ fault place, read text .postman ≠ .error (.notJson (.malformed fault place))) ↔
        IsSpacedAsJson text) ∧
      (IsSpacedAsJson text → read text .postman = read (Text.trim text) .postman) := by
  obtain ⟨members, htrim⟩ := exists_members_of_detect? h
  have hsame : IsSpacedAsJson text → read text .postman = read (Text.trim text) .postman := by
    intro hspaced
    simp only [read, read_eq_of_isSpacedAsJson htrim hspaced, htrim]
  refine ⟨⟨?_, ?_⟩, hsame⟩
  · intro hwell
    by_contra hspaced
    obtain ⟨fault, place, hread⟩ := exists_read_eq_error_of_not_isSpacedAsJson htrim hspaced
    exact hwell fault place (by simp only [read, hread])
  · intro hspaced fault place hmalformed
    rw [hsame hspaced] at hmalformed
    simp only [read, htrim] at hmalformed
    cases hrequests : Collection.requests (.object members) with
    | error fault => rw [hrequests] at hmalformed; cases hmalformed
    | ok requests => rw [hrequests] at hmalformed; cases hmalformed

/-- Line breaks and tabs on both sides of a collection. -/
theorem read_ne_malformed_of_line_breaks :
    let text := "\r\n\t\x7b\"info\": \x7b\x7d, \"item\": [\x7b\"request\": \"/a\"\x7d]\x7d\n "
    detect? text = some .postman ∧
      ∀ fault place, read text .postman ≠ .error (.notJson (.malformed fault place)) := by
  intro text
  have hdetect : detect? text = some .postman := by decide +kernel
  have hspaced : IsSpacedAsJson text :=
    ⟨['\r', '\n', '\t'], ['\n', ' '], by decide +kernel, by decide⟩
  exact ⟨hdetect, (read_ne_malformed_iff hdetect).1.2 hspaced⟩

/-- A no-break space before a collection. -/
theorem read_eq_malformed_of_no_break_space :
    let text := "\u00a0\x7b\"info\": \x7b\x7d, \"item\": [\x7b\"request\": \"/a\"\x7d]\x7d"
    detect? text = some .postman ∧
      read text .postman = .error (.notJson (.malformed .value ⟨1, 1, 0⟩)) := by
  intro text
  have htext : text.toList = '\u00a0' :: text.toList.tail := by decide +kernel
  have hskip : Json.skipSpace text.toList = text.toList := by decide +kernel
  have hvalue := Json.value_eq_error_of_blank (by decide : Text.isBlank '\u00a0' = true)
    Json.maxDepth text.toList.tail
  rw [← htext] at hvalue
  have hdocument := Json.document_of_value_eq_error (by decide +kernel) (hskip.symm ▸ hvalue)
  have hread : Json.read text = .error (.malformed .value ⟨1, 1, 0⟩) := by
    rw [Json.read, hdocument]
    exact congrArg Except.error (by decide)
  exact ⟨by decide +kernel, by simp only [read, hread]⟩

end RequestForms.InputFormat
