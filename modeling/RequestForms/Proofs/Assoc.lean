import RequestForms.Proofs.Headers

/-!
# Looking names up

What a name stands for in a list of named values, and in the one that comes of setting pairs one
after another.
-/

namespace RequestForms.Assoc

variable {α : Type}

theorem lookup_cons_of_ne {name key : String} (h : name ≠ key) (value : α)
    (rest : List (String × α)) : ((key, value) :: rest).lookup name = rest.lookup name := by
  rw [List.lookup_cons, beq_eq_false_iff_ne.2 h]

theorem lookup_filter (p : String → Bool) (entries : List (String × α)) (name : String) :
    (entries.filter fun entry => p entry.1).lookup name =
      if p name then entries.lookup name else none := by
  induction entries with
  | nil => simp
  | cons entry rest ih =>
      obtain ⟨key, value⟩ := entry
      rw [List.filter_cons]
      by_cases hkey : name = key
      · subst hkey
        split
        · next hp => rw [List.lookup_cons_self, List.lookup_cons_self]
        · next hp => rw [ih]; simp [hp]
      · rw [lookup_cons_of_ne hkey, ← ih]
        split
        · exact lookup_cons_of_ne hkey value _
        · rfl

theorem lookup_map_if (name : String) (f : α → α) (entries : List (String × α)) (other : String) :
    (entries.map fun entry => if entry.1 = name then (entry.1, f entry.2) else entry).lookup other =
      if other = name then (entries.lookup other).map f else entries.lookup other := by
  induction entries with
  | nil => simp
  | cons entry rest ih =>
      obtain ⟨key, value⟩ := entry
      rw [List.map_cons]
      by_cases hkey : other = key
      · subst hkey
        by_cases hname : other = name
        · rw [if_pos hname, if_pos hname, List.lookup_cons_self, List.lookup_cons_self,
            Option.map_some]
        · rw [if_neg hname, if_neg hname, List.lookup_cons_self, List.lookup_cons_self]
      · rw [lookup_cons_of_ne hkey, ← ih]
        split <;> exact lookup_cons_of_ne hkey _ _

theorem lookup_eq_some_iff {name : String} {value : α} {entries : List (String × α)}
    (hnodup : (entries.map Prod.fst).Nodup) :
    entries.lookup name = some value ↔ (name, value) ∈ entries := by
  induction entries with
  | nil => simp
  | cons entry rest ih =>
      obtain ⟨key, v⟩ := entry
      rw [List.map_cons, List.nodup_cons] at hnodup
      by_cases h : name = key
      · subst h
        have hrest : (name, value) ∉ rest := by
          intro hmem
          have hkey : name ∈ rest.map Prod.fst := List.mem_map_of_mem hmem
          exact hnodup.1 hkey
        simp [hrest, eq_comm]
      · rw [lookup_cons_of_ne h, ih hnodup.2]
        simp [h]

/-- Where each name stands once, the order of the entries does not matter to a look-up. -/
theorem lookup_eq_of_perm {a b : List (String × α)} (hnodup : (a.map Prod.fst).Nodup)
    (h : a.Perm b) (name : String) : a.lookup name = b.lookup name := by
  have hnodup' : (b.map Prod.fst).Nodup := (h.map Prod.fst).nodup_iff.1 hnodup
  apply Option.ext
  intro value
  rw [lookup_eq_some_iff hnodup, lookup_eq_some_iff hnodup', h.mem_iff]

/-- Entries are known by their names in order and by what each name stands for. -/
theorem eq_of_lookup_eq {a b : List (String × α)} (hnodup : (a.map Prod.fst).Nodup)
    (hkeys : a.map Prod.fst = b.map Prod.fst) (h : ∀ name, a.lookup name = b.lookup name) :
    a = b := by
  have hpaired : ∀ {entries : List (String × α)}, (entries.map Prod.fst).Nodup →
      entries.map (fun entry => (entry.1, some entry.2)) =
        (entries.map Prod.fst).map fun name => (name, entries.lookup name) := by
    intro entries hentries
    rw [List.map_map]
    apply List.map_congr_left
    intro entry hentry
    rw [Function.comp_apply, (lookup_eq_some_iff hentries).2 hentry]
  have hsame : a.map (fun entry => (entry.1, some entry.2)) =
      b.map fun entry => (entry.1, some entry.2) := by
    rw [hpaired hnodup, hpaired (hkeys ▸ hnodup), ← hkeys]
    exact List.map_congr_left fun name _ => by rw [h]
  refine (List.map_inj_right ?_).1 hsame
  rintro ⟨name, value⟩ ⟨name', value'⟩ hentry
  simpa using hentry

theorem keys_ofPairs (pairs : List (String × α)) :
    (ofPairs pairs).map Prod.fst = (pairs.map Prod.fst).eraseDups := by
  induction pairs using List.reverseRecOn with
  | nil => rfl
  | append_singleton pairs pair ih =>
      rw [ofPairs_concat, keys_set, ih, List.map_append, List.eraseDups_append]
      by_cases hmem : pair.1 ∈ pairs.map Prod.fst
      · rw [if_pos (List.mem_eraseDups.2 hmem)]
        simp [List.removeAll, hmem]
      · rw [if_neg fun h => hmem (List.mem_eraseDups.1 h)]
        simp [List.removeAll, hmem, List.eraseDups_cons]

theorem lookup_ofPairs (pairs : List (String × α)) (name : String) :
    (ofPairs pairs).lookup name = pairs.reverse.lookup name := by
  induction pairs using List.reverseRecOn with
  | nil => rfl
  | append_singleton pairs pair ih =>
      obtain ⟨key, value⟩ := pair
      rw [ofPairs_concat, lookup_set, ih, List.reverse_append, List.reverse_singleton,
        List.singleton_append]
      by_cases h : name = key
      · rw [if_pos h, h, List.lookup_cons_self]
      · rw [if_neg h, lookup_cons_of_ne h]

/-! ## What setting a name leaves as it is -/

theorem mem_set (name : String) (value : α) (entries : List (String × α)) :
    (name, value) ∈ set name value entries := by
  induction entries with
  | nil => exact List.mem_singleton_self _
  | cons entry rest ih =>
      rw [set]
      split
      · next hname =>
          rw [hname]
          exact List.mem_cons_self
      · exact List.mem_cons_of_mem _ ih

/-- Where a name is set, the entries of other names stay as they are. -/
theorem filter_set_of_eq_false {p : String → Bool} {name : String} (h : p name = false) (value : α)
    (entries : List (String × α)) :
    (set name value entries).filter (fun entry => p entry.1) =
      entries.filter fun entry => p entry.1 := by
  induction entries with
  | nil => simp [set, h]
  | cons entry rest ih =>
      obtain ⟨key, other⟩ := entry
      rw [set]
      split
      · next hkey =>
          subst hkey
          rw [List.filter_cons_of_neg (by simp [h]), List.filter_cons_of_neg (by simp [h])]
      · rw [List.filter_cons, List.filter_cons, ih]

/-- Where each name stands once, a name has one entry. -/
theorem filter_eq_singleton {name : String} {value : α} {entries : List (String × α)}
    (hnodup : (entries.map Prod.fst).Nodup) (h : (name, value) ∈ entries) :
    (entries.filter fun entry => entry.1 = name) = [(name, value)] := by
  induction entries with
  | nil => cases h
  | cons entry rest ih =>
      rw [List.map_cons, List.nodup_cons] at hnodup
      rcases List.mem_cons.1 h with rfl | hmem
      · have hrest : (rest.filter fun entry => entry.1 = name) = [] := by
          simp only [List.filter_eq_nil_iff, decide_eq_true_eq]
          rintro other hother rfl
          have hkey : other.1 ∈ rest.map Prod.fst := List.mem_map_of_mem hother
          exact hnodup.1 hkey
        rw [List.filter_cons_of_pos (by simp), hrest]
      · have hname : name ∈ rest.map Prod.fst := List.mem_map_of_mem hmem
        have hne : entry.1 ≠ name := by
          rintro rfl
          exact hnodup.1 hname
        rw [List.filter_cons_of_neg (by simpa using hne), ih hnodup.2 hmem]

/-- Two lists of pairs come to the same entries if they name the same names in the same order, as
far as the first mention of each goes, and each gets the same value in the end. -/
theorem ofPairs_eq_iff {pairs pairs' : List (String × α)} :
    ofPairs pairs = ofPairs pairs' ↔
      (pairs.map Prod.fst).eraseDups = (pairs'.map Prod.fst).eraseDups ∧
        ∀ name, pairs.reverse.lookup name = pairs'.reverse.lookup name := by
  simp only [← keys_ofPairs, ← lookup_ofPairs]
  constructor
  · intro h
    rw [h]
    exact ⟨rfl, fun _ => rfl⟩
  · rintro ⟨hkeys, hlookup⟩
    exact eq_of_lookup_eq (nodup_keys_ofPairs pairs) hkeys hlookup

end RequestForms.Assoc
