/-!
# Association lists in insertion order

A list of named values keeps each name once: setting a name that is present changes its value in
place, and setting a new one adds it at the end.
-/

namespace RequestForms.Assoc

variable {α : Type}

/-- Changes the value of a name in place, or adds it at the end. -/
def set (name : String) (value : α) : List (String × α) → List (String × α)
  | [] => [(name, value)]
  | (n, v) :: rest => if n = name then (n, value) :: rest else (n, v) :: set name value rest

/-- The pairs set one after another: of several values of a name the last counts, at the place of
the first. -/
def ofPairs (pairs : List (String × α)) : List (String × α) :=
  pairs.foldl (fun entries pair => set pair.1 pair.2 entries) []

theorem keys_set (name : String) (value : α) (entries : List (String × α)) :
    (set name value entries).map Prod.fst =
      if name ∈ entries.map Prod.fst then entries.map Prod.fst
      else entries.map Prod.fst ++ [name] := by
  induction entries with
  | nil => simp [set]
  | cons entry rest ih =>
      obtain ⟨n, v⟩ := entry
      by_cases h : n = name
      · simp [set, h]
      · have h' : ¬name = n := fun e => h e.symm
        simp only [set, if_neg h, List.map_cons, ih, List.mem_cons, h', false_or]
        split <;> simp

theorem nodup_keys_set {name : String} {value : α} {entries : List (String × α)}
    (h : (entries.map Prod.fst).Nodup) : ((set name value entries).map Prod.fst).Nodup := by
  rw [keys_set]
  split
  · exact h
  · next hn =>
      rw [List.nodup_append]
      refine ⟨h, by simp, ?_⟩
      intro a ha b hb
      simp only [List.mem_singleton] at hb
      exact fun e => hn (hb ▸ e ▸ ha)

theorem nodup_keys_foldl_set {pairs entries : List (String × α)}
    (h : (entries.map Prod.fst).Nodup) :
    ((pairs.foldl (fun entries pair => set pair.1 pair.2 entries) entries).map
      Prod.fst).Nodup := by
  induction pairs generalizing entries with
  | nil => exact h
  | cons pair rest ih => exact ih (nodup_keys_set h)

theorem nodup_keys_ofPairs (pairs : List (String × α)) :
    ((ofPairs pairs).map Prod.fst).Nodup :=
  nodup_keys_foldl_set (by simp)

theorem lookup_set (name key : String) (value : α) (entries : List (String × α)) :
    (set name value entries).lookup key =
      if key = name then some value else entries.lookup key := by
  induction entries with
  | nil =>
      by_cases h : key = name
      · simp [set, h]
      · have hk : (key == name) = false := by simpa using h
        simp [set, List.lookup_cons, h, hk]
  | cons entry rest ih =>
      obtain ⟨n, v⟩ := entry
      by_cases h : n = name
      · by_cases hk : key = n
        · simp [set, ← h, hk]
        · have hk' : (key == n) = false := by simpa using hk
          simp [set, List.lookup_cons, ← h, hk, hk']
      · by_cases hk : key = n
        · simp [set, h, hk]
        · have hk' : (key == n) = false := by simpa using hk
          simp [set, List.lookup_cons, h, hk', ih]

end RequestForms.Assoc
