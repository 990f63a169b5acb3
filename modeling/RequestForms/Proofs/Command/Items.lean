import RequestForms.Command.Flag

/-!
# The parts of an argument list

How the words of a command are taken together: one rule for each kind of part, and the list of parts
is the only one that the rules allow.
-/

namespace RequestForms.Command

/-- Words and the parts that they are taken together to, from the left on. -/
inductive Grouped : List String → List Item → Prop
  | nil : Grouped [] []
  | switch {word : String} {flag : Switch} {rest : List String} {groups : List Item}
      (hword : Flag.ofWord? word = some (.switch flag)) (hrest : Grouped rest groups) :
      Grouped (word :: rest) (.switch flag :: groups)
  | setting {word value : String} {flag : Setting} {rest : List String} {groups : List Item}
      (hword : Flag.ofWord? word = some (.setting flag)) (hrest : Grouped rest groups) :
      Grouped (word :: value :: rest) (.setting flag value :: groups)
  | unfinished {word : String} {flag : Setting}
      (hword : Flag.ofWord? word = some (.setting flag)) : Grouped [word] []
  | word {word : String} {rest : List String} {groups : List Item}
      (hword : Flag.ofWord? word = none) (hrest : Grouped rest groups) :
      Grouped (word :: rest) (.word word :: groups)

theorem grouped_items (args : List String) : Grouped args (items args) := by
  induction args using items.induct with
  | case1 => exact .nil
  | case2 word rest hword ih =>
      rw [items, hword]
      exact .word hword ih
  | case3 word rest flag hword ih =>
      rw [items, hword]
      exact .switch hword ih
  | case4 word flag hword =>
      rw [items, hword]
      exact .unfinished hword
  | case5 word flag hword value rest ih =>
      rw [items, hword]
      exact .setting hword ih

theorem Grouped.eq_items {args : List String} {groups : List Item} (h : Grouped args groups) :
    groups = items args := by
  induction h with
  | nil => rfl
  | switch hword hrest ih => rw [items, hword, ih]
  | setting hword hrest ih => rw [items, hword, ih]
  | unfinished hword => rw [items, hword]
  | word hword hrest ih => rw [items, hword, ih]

theorem grouped_iff {args : List String} {groups : List Item} :
    Grouped args groups ↔ groups = items args := by
  refine ⟨Grouped.eq_items, ?_⟩
  rintro rfl
  exact grouped_items args

/-- A value stands directly behind its flag. -/
theorem exists_of_setting_mem_items {args : List String} {flag : Setting} {value : String}
    (h : Item.setting flag value ∈ items args) :
    ∃ front word behind, args = front ++ word :: value :: behind ∧
      Flag.ofWord? word = some (.setting flag) := by
  induction args using items.induct with
  | case1 => simp [items] at h
  | case2 word rest hword ih =>
      rw [items, hword] at h
      obtain ⟨front, name, behind, rfl, hname⟩ := ih (List.mem_of_ne_of_mem (by simp) h)
      exact ⟨word :: front, name, behind, rfl, hname⟩
  | case3 word rest flag hword ih =>
      rw [items, hword] at h
      obtain ⟨front, name, behind, rfl, hname⟩ := ih (List.mem_of_ne_of_mem (by simp) h)
      exact ⟨word :: front, name, behind, rfl, hname⟩
  | case4 word flag hword => simp [items, hword] at h
  | case5 word flag hword value rest ih =>
      rw [items, hword] at h
      rcases List.mem_cons.1 h with heq | hmem
      · obtain ⟨rfl, rfl⟩ := Item.setting.inj heq
        exact ⟨[], word, rest, rfl, hword⟩
      · obtain ⟨front, name, behind, rfl, hname⟩ := ih hmem
        exact ⟨word :: value :: front, name, behind, rfl, hname⟩

end RequestForms.Command
