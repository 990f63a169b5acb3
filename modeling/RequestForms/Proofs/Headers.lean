import Mathlib.Data.List.Induction
import RequestForms.Headers

/-!
# Setting headers one after another

Names that are new are added in their order, so that headers set again from their own entries are
the same headers.
-/

namespace RequestForms

namespace Assoc

variable {α : Type}

theorem set_of_not_mem {name : String} {entries : List (String × α)}
    (h : name ∉ entries.map Prod.fst) (value : α) :
    set name value entries = entries ++ [(name, value)] := by
  induction entries with
  | nil => rfl
  | cons entry rest ih =>
      obtain ⟨n, v⟩ := entry
      simp only [List.map_cons, List.mem_cons, not_or] at h
      rw [set, if_neg (Ne.symm h.1), ih h.2]
      rfl

/-- Setting a name that is there once changes its value in place. -/
theorem set_of_mem {name : String} {entries : List (String × α)}
    (hnodup : (entries.map Prod.fst).Nodup) (h : name ∈ entries.map Prod.fst) (value : α) :
    set name value entries =
      entries.map fun entry => (entry.1, if entry.1 = name then value else entry.2) := by
  induction entries with
  | nil => simp at h
  | cons entry rest ih =>
      obtain ⟨n, v⟩ := entry
      rw [List.map_cons, List.nodup_cons] at hnodup
      rw [set, List.map_cons]
      by_cases hn : n = name
      · -- the name stands nowhere behind its first place
        have hrest : rest.map (fun entry => (entry.1, if entry.1 = name then value else entry.2)) =
            rest := by
          refine (List.map_congr_left ?_).trans (List.map_id rest)
          intro other hmem
          have hname : other.1 ∈ rest.map Prod.fst := List.mem_map_of_mem hmem
          have hother : other.1 ≠ name := by
            intro he
            rw [he, ← hn] at hname
            exact hnodup.1 hname
          rw [if_neg hother]
          rfl
        rw [if_pos hn, hrest, if_pos hn]
      · rw [if_neg hn, if_neg hn, ih hnodup.2 (List.mem_of_ne_of_mem (Ne.symm hn) h)]

theorem foldl_set_of_nodup {entries pairs : List (String × α)}
    (h : ((entries ++ pairs).map Prod.fst).Nodup) :
    pairs.foldl (fun entries pair => set pair.1 pair.2 entries) entries = entries ++ pairs := by
  induction pairs generalizing entries with
  | nil => simp
  | cons pair pairs ih =>
      have hnew : pair.1 ∉ entries.map Prod.fst := by
        intro hmem
        rw [List.map_append, List.nodup_append] at h
        exact h.2.2 pair.1 hmem pair.1 (by simp) rfl
      have hnext : (((entries ++ [pair]) ++ pairs).map Prod.fst).Nodup := by
        rwa [List.append_assoc]
      rw [List.foldl_cons, set_of_not_mem hnew, ih hnext, List.append_assoc]
      rfl

theorem ofPairs_of_nodup {pairs : List (String × α)} (h : (pairs.map Prod.fst).Nodup) :
    ofPairs pairs = pairs :=
  foldl_set_of_nodup h

theorem ofPairs_concat (pairs : List (String × α)) (pair : String × α) :
    ofPairs (pairs ++ [pair]) = set pair.1 pair.2 (ofPairs pairs) := by
  rw [ofPairs, List.foldl_append]
  rfl

theorem mem_keys_ofPairs {pairs : List (String × α)} {name : String} :
    name ∈ (ofPairs pairs).map Prod.fst ↔ name ∈ pairs.map Prod.fst := by
  induction pairs using List.reverseRecOn with
  | nil => rfl
  | append_singleton pairs pair ih =>
      rw [ofPairs_concat, keys_set, List.map_append, List.mem_append, ← ih]
      split
      · next hmem =>
          refine ⟨Or.inl, fun h => h.elim id fun hpair => ?_⟩
          rwa [List.mem_singleton.1 hpair]
      · exact List.mem_append

/-- Of the names that have a property, the one that is set last has the value that it is set to. -/
theorem lookup_ofPairs_of_getLast? {p : String → Bool} {pairs : List (String × α)} {name : String}
    {value : α} (h : (pairs.filter fun pair => p pair.1).getLast? = some (name, value)) :
    (ofPairs pairs).lookup name = some value := by
  induction pairs using List.reverseRecOn with
  | nil => cases h
  | append_singleton pairs pair ih =>
      rw [ofPairs_concat, lookup_set]
      rw [List.filter_append, List.getLast?_append] at h
      cases hpair : p pair.1 with
      | true =>
          obtain rfl : pair = (name, value) := by simpa [hpair] using h
          rw [if_pos rfl]
      | false =>
          have hlast : (pairs.filter fun pair => p pair.1).getLast? = some (name, value) := by
            simpa [hpair] using h
          have hname : p name = true := (List.mem_filter.1 (List.mem_of_getLast? hlast)).2
          have hne : name ≠ pair.1 := by
            rintro rfl
            rw [hname] at hpair
            cases hpair
          rw [if_neg hne, ih hlast]

end Assoc

namespace Headers

theorem eq_of_entries_eq {a b : Headers} (h : a.entries = b.entries) : a = b := by
  cases a
  cases b
  cases h
  rfl

theorem ofPairs_entries (headers : Headers) : ofPairs headers.entries = headers :=
  eq_of_entries_eq (Assoc.ofPairs_of_nodup headers.nodup_names)

def isContentType (name : String) : Bool := Text.toLower name = "content-type"

/-- The value that comes last under the name of the content type. -/
def contentTypeOf? (pairs : List (String × String)) : Option String :=
  ((pairs.filter fun pair => isContentType pair.1).getLast?).map Prod.snd

def contentType? (headers : Headers) : Option String := contentTypeOf? headers.entries

theorem contentTypeOf?_cons (pair : String × String) (pairs : List (String × String)) :
    contentTypeOf? (pair :: pairs) =
      (contentTypeOf? pairs).or (if isContentType pair.1 then some pair.2 else none) := by
  rw [contentTypeOf?, contentTypeOf?, List.filter_cons]
  split
  · rw [List.getLast?_cons]
    cases (pairs.filter fun pair => isContentType pair.1).getLast? <;> rfl
  · simp

theorem entries_foldl_set (pairs : List (String × String)) (headers : Headers) :
    (pairs.foldl (fun headers pair => headers.set pair.1 pair.2) headers).entries =
      pairs.foldl (fun entries pair => Assoc.set pair.1 pair.2 entries) headers.entries := by
  induction pairs generalizing headers with
  | nil => rfl
  | cons pair pairs ih => exact ih _

/-- Setting the entries of headers one after another gives the headers again. -/
theorem foldl_set_entries (headers : Headers) :
    headers.entries.foldl (fun headers pair => headers.set pair.1 pair.2) empty = headers :=
  eq_of_entries_eq ((entries_foldl_set _ _).trans (Assoc.ofPairs_of_nodup headers.nodup_names))

end Headers

end RequestForms
