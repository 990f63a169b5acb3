import Mathlib.Data.List.Basic
import RequestForms.Method
import RequestForms.Proofs.Text.Blank
import RequestForms.Proofs.Text.Casing
import RequestForms.Text.WordChar

/-!
# The written form of a method

Upper case never turns a character into a blank, so that a method has no blanks around it.
-/

namespace RequestForms.Text

theorem exists_range_of_inRanges {n : Nat} {ranges : List (Nat × Nat)}
    (h : inRanges n ranges = true) : ∃ range ∈ ranges, range.1 ≤ n ∧ n ≤ range.2 := by
  induction ranges with
  | nil => simp [inRanges] at h
  | cons range ranges ih =>
      simp only [inRanges, Bool.and_eq_true, Bool.or_eq_true, decide_eq_true_eq] at h
      obtain ⟨hfirst, hlast | hrest⟩ := h
      · exact ⟨range, by simp, hfirst, hlast⟩
      · obtain ⟨found, hmem, hfound⟩ := ih hrest
        exact ⟨found, List.mem_cons_of_mem _ hmem, hfound⟩

/-- A code point that no blank range comes near is not blank, valid or not. -/
theorem isBlank_ofNat {n : Nat} (h : ∀ range ∈ blankRanges, n < range.1 ∨ range.2 < n) :
    isBlank (Char.ofNat n) = false := by
  cases hblank : isBlank (Char.ofNat n) with
  | false => rfl
  | true =>
      exfalso
      obtain ⟨range, hmem, hrange⟩ := exists_range_of_inRanges hblank
      have hfirst : ∀ range ∈ blankRanges, 0 < range.1 := by decide
      have hpositive := hfirst range hmem
      have hfar := h range hmem
      rcases toNat_ofNat_eq_or n with heq | hzero <;> omega

namespace Casing

theorem le_of_mem_spread {start n : Nat} {run : Nat × Nat × Nat × Nat} (h : n ∈ spread start run) :
    start ≤ n ∧ n ≤ start + (run.2.1 - run.1) := by
  obtain ⟨k, hk, rfl⟩ := mem_spread.1 h
  have := Nat.mul_le_of_le_div run.2.2.1 k _ hk
  rw [Nat.mul_comm] at this
  omega

theorem upperRuns_not_blank : ∀ run ∈ upperRuns, ∀ range ∈ blankRanges,
    run.2.2.2 + (run.2.1 - run.1) < range.1 ∨ range.2 < run.2.2.2 := by
  decide +kernel

theorem upperExpansions_not_blank : ∀ expansion ∈ upperExpansions, expansion.2 ≠ [] ∧
    ∀ n ∈ expansion.2, ∀ range ∈ blankRanges, n < range.1 ∨ range.2 < n := by
  decide +kernel

theorem mapped_upper_not_blank {c : Char} (hc : isBlank c = false) :
    mapped upperRuns upperExpansions c ≠ [] ∧
      ∀ d ∈ mapped upperRuns upperExpansions c, isBlank d = false := by
  unfold mapped
  split
  · next n hn =>
      obtain ⟨run, hmem, -, himage⟩ := exists_run_of_findRun hn
      have hrun := le_of_mem_spread himage
      have hblank : isBlank (Char.ofNat n) = false := by
        apply isBlank_ofNat
        intro range hrange
        have := upperRuns_not_blank run hmem range hrange
        omega
      simpa using hblank
  · split
    · next ns hns =>
        obtain ⟨before, behind, happ, -⟩ := List.lookup_eq_some_iff.1 hns
        obtain ⟨hne, hblank⟩ := upperExpansions_not_blank (c.toNat, ns) (by rw [happ]; simp)
        refine ⟨by simpa using hne, List.forall_mem_map.2 fun n hn => ?_⟩
        exact isBlank_ofNat (hblank n hn)
    · simpa using hc

end Casing

/-- The capital of a small letter is no blank. -/
theorem isBlank_smallLetter {c : Char} (h : 'a' ≤ c ∧ c ≤ 'z') :
    isBlank (Char.ofNat (c.toNat - 32)) = false := by
  have hlow : 97 ≤ c.toNat := h.1
  have hhigh : c.toNat ≤ 122 := h.2
  apply isBlank_ofNat
  simp only [blankRanges, List.forall_mem_cons, List.not_mem_nil, false_implies,
    implies_true, and_true]
  omega

/-- The upper case of a character is no blank and not nothing, unless the character is blank. -/
theorem upperChar_not_blank {c : Char} (hc : isBlank c = false) :
    upperChar c ≠ [] ∧ ∀ d ∈ upperChar c, isBlank d = false := by
  unfold upperChar
  split
  · split
    · next hletter => simpa using isBlank_smallLetter hletter
    · simpa using hc
  · exact Casing.mapped_upper_not_blank hc

/-- Upper case keeps the ends of a text from being blank. -/
theorem strip_upper {s : List Char} (h : strip s = s) : strip (upper s) = upper s := by
  obtain ⟨hhead, hlast⟩ := strip_eq_self_iff.1 h
  rw [strip_eq_self_iff]
  constructor
  · intro c hc
    cases s with
    | nil => simp [upper] at hc
    | cons d s =>
        obtain ⟨hne, hblank⟩ := upperChar_not_blank (hhead d rfl)
        rw [upper, List.flatMap_cons, List.head?_append, List.head?_eq_some_head hne] at hc
        exact hblank c (Option.some.inj hc ▸ List.head_mem hne)
  · intro c hc
    rcases List.eq_nil_or_concat s with rfl | ⟨front, d, rfl⟩
    · simp [upper] at hc
    · rw [List.concat_eq_append] at hlast hc
      obtain ⟨hne, hblank⟩ := upperChar_not_blank (hlast d (by simp))
      rw [upper, List.flatMap_append, List.flatMap_singleton, List.getLast?_append,
        List.getLast?_eq_some_getLast hne] at hc
      exact hblank c (Option.some.inj hc ▸ List.getLast_mem hne)

end RequestForms.Text

namespace RequestForms.Method

theorem trim_name (method : Method) : Text.trim method.name = method.name := by
  obtain ⟨name, raw, rfl⟩ := method
  rw [Text.trim_eq_self_iff]
  unfold normalMethodName
  dsimp only
  split
  · decide
  · rw [Text.toUpper, String.toList_ofList, Text.toList_trim]
    exact Text.strip_upper (Text.strip_strip _)

theorem name_ofString (raw : String) : (ofString raw).name = normalMethodName raw := by
  rw [ofString]

theorem eq_iff_name_eq {a b : Method} : a = b ↔ a.name = b.name := by
  cases a
  cases b
  simp

/-- A method is in upper case. -/
theorem toUpper_name (method : Method) : Text.toUpper method.name = method.name := by
  obtain ⟨name, raw, rfl⟩ := method
  unfold normalMethodName
  dsimp only
  split
  · decide
  · exact Text.toUpper_toUpper _

/-- The written form of a method names it again. -/
theorem ofString_name (method : Method) : ofString method.name = method := by
  rw [eq_iff_name_eq, name_ofString, normalMethodName, method.trim_name, method.toUpper_name,
    if_neg method.name_ne_empty]

/-! ## Methods in plain letters -/

def plainChars : List Char := "ABCDEFGHIJKLMNOPQRSTUVWXYZ0123456789_".toList

def IsPlainName (method : Method) : Prop := ∀ c ∈ method.name.toList, c ∈ plainChars

instance (method : Method) : Decidable method.IsPlainName :=
  inferInstanceAs (Decidable (∀ c ∈ method.name.toList, c ∈ plainChars))

/-- What the tables say of these characters. -/
theorem tables_of_mem_plainChars : ∀ c ∈ plainChars, c ≠ 'Σ' ∧ Text.isWordChar c = true ∧
    Text.upperChar c = [c] ∧ (Text.lowerChar c).flatMap Text.upperChar = [c] ∧
      ∀ d ∈ Text.lowerChar c, Text.isWordChar d = true ∧ Text.isBlank d = false := by
  decide +kernel

theorem sigma_not_mem {s : List Char} (h : ∀ c ∈ s, c ∈ plainChars) : 'Σ' ∉ s :=
  fun hmem => (tables_of_mem_plainChars 'Σ' (h 'Σ' hmem)).1 rfl

theorem lower_eq_flatMap {s : List Char} (h : 'Σ' ∉ s) (before : List Char) :
    Text.lowerAfter before s = s.flatMap Text.lowerChar := by
  induction s generalizing before with
  | nil => rfl
  | cons c s ih =>
      simp only [List.mem_cons, not_or] at h
      rw [Text.lowerAfter, if_neg (Ne.symm h.1), ih h.2]
      rfl

theorem upper_lower {s : List Char} (h : ∀ c ∈ s, c ∈ plainChars) :
    Text.upper (Text.lower s) = s := by
  rw [Text.lower, lower_eq_flatMap (sigma_not_mem h), Text.upper]
  induction s with
  | nil => rfl
  | cons c s ih =>
      obtain ⟨-, -, -, hback, -⟩ := tables_of_mem_plainChars c (h c (by simp))
      rw [List.flatMap_cons, List.flatMap_append, hback,
        ih fun d hd => h d (List.mem_cons_of_mem c hd)]
      rfl

namespace IsPlainName

variable {method : Method}

theorem toUpper_toLower_name (h : method.IsPlainName) :
    Text.toUpper (Text.toLower method.name) = method.name := by
  rw [Text.toUpper, Text.toLower, String.toList_ofList, upper_lower h, String.ofList_toList]

theorem isWordChar_name (h : method.IsPlainName) :
    ∀ c ∈ method.name.toList, Text.isWordChar c = true :=
  fun c hc => (tables_of_mem_plainChars c (h c hc)).2.1

theorem exists_of_mem_toLower_name (h : method.IsPlainName) {d : Char}
    (hd : d ∈ (Text.toLower method.name).toList) :
    ∃ c ∈ plainChars, d ∈ Text.lowerChar c := by
  rw [Text.toLower, String.toList_ofList, Text.lower, lower_eq_flatMap (sigma_not_mem h)] at hd
  obtain ⟨c, hc, hd⟩ := List.mem_flatMap.1 hd
  exact ⟨c, h c hc, hd⟩

theorem isWordChar_toLower_name (h : method.IsPlainName) :
    ∀ d ∈ (Text.toLower method.name).toList, Text.isWordChar d = true := by
  intro d hd
  obtain ⟨c, hc, hd⟩ := h.exists_of_mem_toLower_name hd
  obtain ⟨-, -, -, -, hlower⟩ := tables_of_mem_plainChars c hc
  exact (hlower d hd).1

theorem trim_toLower_name (h : method.IsPlainName) :
    Text.trim (Text.toLower method.name) = Text.toLower method.name := by
  rw [Text.trim_eq_self_iff]
  apply Text.strip_eq_self_of_not_blank
  intro d hd
  obtain ⟨c, hc, hd⟩ := h.exists_of_mem_toLower_name hd
  obtain ⟨-, -, -, -, hlower⟩ := tables_of_mem_plainChars c hc
  exact (hlower d hd).2

/-- The method comes back from its small letters. -/
theorem ofString_toLower_name (h : method.IsPlainName) :
    Method.ofString (Text.toLower method.name) = method := by
  rw [eq_iff_name_eq, name_ofString, normalMethodName, h.trim_toLower_name,
    h.toUpper_toLower_name, if_neg method.name_ne_empty]

end IsPlainName

theorem name_get : get.name = "GET" := by
  have htrim : Text.trim "GET" = "GET" := by decide
  have hupper : Text.toUpper "GET" = "GET" := by decide
  rw [get, name_ofString, normalMethodName, htrim, hupper, if_neg (by decide)]

end RequestForms.Method
