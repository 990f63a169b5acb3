import Mathlib.Data.List.TakeWhile
import RequestForms.Json.Reader
import RequestForms.Proofs.Text.Blank

/-!
# What JSON readers read

A document is a value with blanks around it. The first character of a value tells what kind of value
it is.
-/

namespace RequestForms.Json

/-! ## Documents -/

/-- What a document reads is a value with blanks around it. -/
theorem exists_of_document_eq_ok {text : List Char} {found : Json}
    (h : document text = .ok found) : ∃ taken : Taken Json (skipSpace text),
      value maxDepth (skipSpace text) = .ok taken ∧ taken.value = found ∧
        skipSpace taken.rest = [] := by
  unfold document at h
  split at h
  · cases h
  · split at h
    · cases h
    · next taken hvalue =>
        split at h
        · next hend =>
            obtain rfl := Except.ok.inj h
            exact ⟨_, hvalue, rfl, hend⟩
        · cases h

theorem document_eq_ok_of_read {text : String} {found : Json} (h : read text = .ok found) :
    document text.toList = .ok found := by
  unfold read at h
  cases hdocument : document text.toList with
  | error stop =>
      rw [hdocument] at h
      cases h
  | ok value =>
      rw [hdocument] at h
      cases h
      rfl

/-! ## Words -/

theorem exists_mem_of_literal? {text rest : List Char} {found : Json}
    {words : List (List Char × Json)} (h : literal? text words = some (found, rest)) :
    ∃ word ∈ words, text = word.1 ++ rest ∧ word.2 = found := by
  induction words with
  | nil => cases h
  | cons word more ih =>
      unfold literal? at h
      split at h
      · next r hr =>
          obtain ⟨rfl, rfl⟩ := Prod.mk.inj (Option.some.inj h)
          exact ⟨word, by simp, Text.dropExact?_eq_some_iff.1 hr, rfl⟩
      · obtain ⟨other, hmem, htext⟩ := ih h
        exact ⟨other, List.mem_cons_of_mem word hmem, htext⟩

/-! ## Blanks and first characters -/

theorem isBlank_of_isSpace {c : Char} (h : isSpace c = true) : Text.isBlank c = true := by
  simp only [isSpace, Bool.or_eq_true, decide_eq_true_eq] at h
  rcases h with ((rfl | rfl) | rfl) | rfl <;> decide

theorem skipSpace_eq_self {s : List Char} (h : ∀ c, s.head? = some c → isSpace c = false) :
    skipSpace s = s := by
  cases s with
  | nil => rfl
  | cons c s =>
      rw [skipSpace, List.dropWhile_cons, h c rfl]
      rfl

theorem scalar_ne_ok {text : List Char} (hquote : text.head? ≠ some '"')
    (hliteral : literal? text literals = none) (hnumeral : numeral? text = none)
    (taken : Taken Json text) : scalar text ≠ .ok taken := by
  intro h
  unfold scalar at h
  split at h
  · exact hquote rfl
  · split at h
    · next hsome =>
        rw [hliteral] at hsome
        cases hsome
    · split at h
      · cases h
      · next hsome =>
          rw [hnumeral] at hsome
          cases hsome

theorem value_eq_scalar {text : List Char} (harray : text.head? ≠ some '[')
    (hobject : text.head? ≠ some '\x7b') (depth : Nat) : value depth text = scalar text := by
  cases depth with
  | zero =>
      unfold value
      split
      · exact absurd rfl harray
      · exact absurd rfl hobject
      · rfl
  | succ depth =>
      unfold value
      split
      · exact absurd rfl harray
      · exact absurd rfl hobject
      · rfl

/-- No value starts with a letter that starts none of the words. -/
theorem read_ne_ok_of_head {text : String} {c : Char} {rest : List Char}
    (htext : text.toList = c :: rest) (hspace : isSpace c = false) (hc : c ∉ ['"', '[', '\x7b'])
    (hliteral : literal? (c :: rest) literals = none) (hnumeral : numeral? (c :: rest) = none)
    (found : Json) : read text ≠ .ok found := by
  intro h
  obtain ⟨taken, hvalue, -, -⟩ := exists_of_document_eq_ok (document_eq_ok_of_read h)
  simp only [List.mem_cons, List.not_mem_nil, or_false, not_or] at hc
  have hskip : skipSpace text.toList = c :: rest := by
    rw [htext]
    apply skipSpace_eq_self
    rintro d ⟨⟩
    exact hspace
  revert taken
  rw [hskip]
  intro taken hvalue
  rw [value_eq_scalar (by simpa using hc.2.1) (by simpa using hc.2.2)] at hvalue
  exact scalar_ne_ok (by simpa using hc.1) hliteral hnumeral taken hvalue

end RequestForms.Json
