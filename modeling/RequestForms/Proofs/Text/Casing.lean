import Mathlib.Data.List.Basic
import RequestForms.Text.Casing

/-!
# Upper case stays

The characters that upper case leads to have no other upper case themselves, so that a text in upper
case is its own upper case. The tables are compared as sets of code points, which are held as the
bits of a number.
-/

namespace RequestForms.Text

/-- A number that is no code point makes the character of code point 0. -/
theorem toNat_ofNat_eq_or (n : Nat) :
    (Char.ofNat n).toNat = n ∨ (Char.ofNat n).toNat = 0 := by
  by_cases h : n.isValidChar
  · left
    rw [Char.ofNat, dif_pos h]
    rfl
  · right
    rw [Char.ofNat, dif_neg h]
    rfl

namespace Casing

/-! ## Sets of code points -/

/-- A set of code points as the bits of a number. -/
def mask (points : List Nat) : Nat := points.foldr (fun n bits => 1 <<< n ||| bits) 0

theorem testBit_mask {points : List Nat} {n : Nat} :
    (mask points).testBit n = true ↔ n ∈ points := by
  induction points with
  | nil => simp [mask]
  | cons m points ih =>
      have hmask : mask (m :: points) = 1 <<< m ||| mask points := rfl
      rw [hmask, Nat.testBit_or, Bool.or_eq_true, ih, Nat.one_shiftLeft, Nat.testBit_two_pow,
        decide_eq_true_eq, List.mem_cons, eq_comm]

theorem not_mem_of_mask {points others : List Nat} (h : mask points &&& mask others = 0) {n : Nat}
    (hn : n ∈ points) : n ∉ others := by
  intro hother
  have hbit : (mask points &&& mask others).testBit n = true := by
    rw [Nat.testBit_and, testBit_mask.2 hn, testBit_mask.2 hother]
    rfl
  rw [h, Nat.zero_testBit] at hbit
  cases hbit

/-- As many code points from one on as a run has, at its distances. -/
def spread (start : Nat) (run : Nat × Nat × Nat × Nat) : List Nat :=
  (List.range ((run.2.1 - run.1) / run.2.2.1 + 1)).map fun k => start + run.2.2.1 * k

/-- The code points that have another upper case. -/
def lowerPoints : List Nat :=
  upperRuns.flatMap (fun run => spread run.1 run) ++ upperExpansions.map Prod.fst

/-- The code points that stand in an upper case. -/
def upperPoints : List Nat :=
  upperRuns.flatMap (fun run => spread run.2.2.2 run) ++ upperExpansions.flatMap Prod.snd

/-- No code point that stands in an upper case has another upper case, nor has 0. -/
theorem mask_upperPoints_and : mask (0 :: upperPoints) &&& mask lowerPoints = 0 := by
  decide +kernel

/-! ## Runs -/

theorem mem_spread {start n : Nat} {run : Nat × Nat × Nat × Nat} :
    n ∈ spread start run ↔
      ∃ k ≤ (run.2.1 - run.1) / run.2.2.1, start + run.2.2.1 * k = n := by
  simp only [spread, List.mem_map, List.mem_range, Nat.lt_succ_iff]

theorem exists_run_of_findRun {n m : Nat} {runs : List (Nat × Nat × Nat × Nat)}
    (h : findRun n runs = some m) :
    ∃ run ∈ runs, n ∈ spread run.1 run ∧ m ∈ spread run.2.2.2 run := by
  induction runs with
  | nil => cases h
  | cons run runs ih =>
      obtain ⟨first, last, step, image⟩ := run
      rw [findRun] at h
      split at h
      · next hin =>
          simp only [Bool.and_eq_true, decide_eq_true_eq, beq_iff_eq] at hin
          obtain ⟨⟨hfirst, hlast⟩, hstep⟩ := hin
          obtain rfl := Option.some.inj h
          have hk : step * ((n - first) / step) = n - first := by
            rw [← Nat.add_zero (step * _), ← hstep, Nat.div_add_mod]
          have hle : (n - first) / step ≤ (last - first) / step :=
            Nat.div_le_div_right (Nat.sub_le_sub_right hlast first)
          refine ⟨(first, last, step, image), by simp, mem_spread.2 ⟨_, hle, ?_⟩,
            mem_spread.2 ⟨_, hle, ?_⟩⟩
          · rw [hk, Nat.add_sub_of_le hfirst]
          · rw [hk]
      · obtain ⟨found, hmem, hfound⟩ := ih h
        exact ⟨found, List.mem_cons_of_mem _ hmem, hfound⟩

theorem mem_lowerPoints_of_run {n : Nat} {run : Nat × Nat × Nat × Nat} (hmem : run ∈ upperRuns)
    (h : n ∈ spread run.1 run) : n ∈ lowerPoints :=
  List.mem_append_left _ (List.mem_flatMap.2 ⟨run, hmem, h⟩)

theorem mem_upperPoints_of_run {n : Nat} {run : Nat × Nat × Nat × Nat} (hmem : run ∈ upperRuns)
    (h : n ∈ spread run.2.2.2 run) : n ∈ upperPoints :=
  List.mem_append_left _ (List.mem_flatMap.2 ⟨run, hmem, h⟩)

theorem toNat_ofNat_mem {n : Nat} (h : n ∈ upperPoints) :
    (Char.ofNat n).toNat ∈ 0 :: upperPoints := by
  rcases toNat_ofNat_eq_or n with heq | hzero
  · rw [heq]
    exact List.mem_cons_of_mem 0 h
  · rw [hzero]
    exact List.mem_cons_self

/-- The letters that need no table are in the first run. -/
theorem mem_points_of_letter {c : Char} (h : 'a' ≤ c ∧ c ≤ 'z') :
    c.toNat ∈ lowerPoints ∧ c.toNat - 32 ∈ upperPoints := by
  have hlow : 97 ≤ c.toNat := h.1
  have hhigh : c.toNat ≤ 122 := h.2
  have hrun : (0x61, 0x7a, 1, 0x41) ∈ upperRuns := List.mem_cons_self
  refine ⟨mem_lowerPoints_of_run hrun (mem_spread.2 ⟨c.toNat - 97, ?_, ?_⟩),
    mem_upperPoints_of_run hrun (mem_spread.2 ⟨c.toNat - 97, ?_, ?_⟩)⟩ <;> dsimp only <;> omega

end Casing

open Casing

/-! ## Characters and texts -/

theorem upperChar_eq_self {c : Char} (h : c.toNat ∉ lowerPoints) : upperChar c = [c] := by
  unfold upperChar
  split
  · split
    · next hletter => exact absurd (mem_points_of_letter hletter).1 h
    · rfl
  · unfold mapped
    split
    · next n hn =>
        obtain ⟨run, hmem, hlower, -⟩ := exists_run_of_findRun hn
        exact absurd (mem_lowerPoints_of_run hmem hlower) h
    · split
      · next ns hns =>
          obtain ⟨before, behind, happ, -⟩ := List.lookup_eq_some_iff.1 hns
          have hmem : (c.toNat, ns) ∈ upperExpansions := by simp [happ]
          exact absurd (List.mem_append_right _ (List.mem_map_of_mem hmem)) h
      · rfl

/-- A character is its own upper case, or becomes characters that the tables list as such. -/
theorem upperChar_eq_self_or (c : Char) :
    upperChar c = [c] ∨ ∀ d ∈ upperChar c, d.toNat ∈ 0 :: upperPoints := by
  unfold upperChar
  split
  · split
    · next hletter =>
        refine Or.inr fun d hd => ?_
        rw [List.mem_singleton.1 hd]
        exact toNat_ofNat_mem (mem_points_of_letter hletter).2
    · exact Or.inl rfl
  · unfold mapped
    split
    · next n hn =>
        obtain ⟨run, hmem, -, hupper⟩ := exists_run_of_findRun hn
        refine Or.inr fun d hd => ?_
        rw [List.mem_singleton.1 hd]
        exact toNat_ofNat_mem (mem_upperPoints_of_run hmem hupper)
    · split
      · next ns hns =>
          obtain ⟨before, behind, happ, -⟩ := List.lookup_eq_some_iff.1 hns
          have hmem : (c.toNat, ns) ∈ upperExpansions := by simp [happ]
          refine Or.inr fun d hd => ?_
          obtain ⟨n, hn, rfl⟩ := List.mem_map.1 hd
          exact toNat_ofNat_mem
            (List.mem_append_right _ (List.mem_flatMap.2 ⟨(c.toNat, ns), hmem, hn⟩))
      · exact Or.inl rfl

/-- The characters of an upper case are in upper case. -/
theorem upperChar_of_mem_upperChar {c d : Char} (h : d ∈ upperChar c) : upperChar d = [d] := by
  rcases upperChar_eq_self_or c with hself | hupper
  · rw [hself, List.mem_singleton] at h
    rw [h, hself]
  · exact upperChar_eq_self (not_mem_of_mask mask_upperPoints_and (hupper d h))

theorem upper_eq_self {s : List Char} (h : ∀ c ∈ s, upperChar c = [c]) : upper s = s :=
  (List.flatMap_congr h).trans (List.flatMap_singleton' s)

@[simp] theorem upper_upper (s : List Char) : upper (upper s) = upper s := by
  apply upper_eq_self
  intro d hd
  obtain ⟨c, -, hc⟩ := List.mem_flatMap.1 hd
  exact upperChar_of_mem_upperChar hc

@[simp] theorem toUpper_toUpper (s : String) : toUpper (toUpper s) = toUpper s := by
  rw [toUpper, toUpper, String.toList_ofList, upper_upper]

end RequestForms.Text
