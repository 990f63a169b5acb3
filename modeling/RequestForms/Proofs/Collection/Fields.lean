import Mathlib.Algebra.Order.BigOperators.Group.List
import Mathlib.Algebra.Order.Ring.Nat
import RequestForms.Proofs.Collection.Request

/-!
# Fields in an address and in a form

Fields are joined to the text of an address or of a body. What the text is without them does not
depend on them, so that its length tells whether some were left out or got shorter.
-/

namespace RequestForms.Collection

/-- How much room some fields take, each with a separator in front of it. -/
def room (fields : List String) : Nat := (fields.map fun field => field.length + 1).sum

theorem room_cons (field : String) (rest : List String) :
    room (field :: rest) = field.length + 1 + room rest := by
  rw [room, List.map_cons, List.sum_cons, room]

theorem length_intercalate {fields : List String} (h : fields ≠ []) :
    ("&".intercalate fields).length + 1 = room fields := by
  induction fields with
  | nil => exact absurd rfl h
  | cons field rest ih =>
      by_cases hrest : rest = []
      · rw [hrest, String.intercalate_singleton]
        rfl
      · rw [String.intercalate_cons_of_ne_nil hrest, String.length_append, String.length_append,
          room_cons, ← ih hrest]
        rfl

/-- Fields that take as much room as the fields that they are taken from are all of them. -/
theorem eq_of_sublist_of_room_eq {fields fields' : List String} (h : fields'.Sublist fields)
    (hroom : room fields' = room fields) : fields' = fields := by
  have hle : ∀ {few many : List String}, few.Sublist many → room few ≤ room many :=
    fun h => (h.map _).sum_le_sum fun _ _ => Nat.zero_le _
  induction h with
  | slnil => rfl
  | cons field h _ =>
      -- the field that is missing would have taken room
      have hless := hle h
      rw [room_cons] at hroom
      omega
  | cons_cons field h ih =>
      rw [room_cons, room_cons] at hroom
      rw [ih (Nat.add_left_cancel hroom)]

/-- Fields none of which got longer take as much room as before only if none got shorter. -/
theorem length_eq_of_room_eq {α : Type} {f g : α → String} {entries : List α}
    (hle : ∀ entry ∈ entries, (g entry).length ≤ (f entry).length)
    (hroom : room (entries.map g) = room (entries.map f)) :
    ∀ entry ∈ entries, (g entry).length = (f entry).length := by
  by_contra h
  obtain ⟨entry, hmem, hne⟩ : ∃ entry ∈ entries, (g entry).length ≠ (f entry).length := by
    simpa using h
  have hless : room (entries.map g) < room (entries.map f) := by
    rw [room, room, List.map_map, List.map_map]
    refine List.sum_lt_sum _ _ (fun entry hmem => Nat.succ_le_succ (hle entry hmem))
      ⟨entry, hmem, ?_⟩
    exact Nat.succ_lt_succ (lt_of_le_of_ne (hle entry hmem) hne)
  omega

/-! ## Addresses -/

theorem exists_length_assembledUrl_eq (url : Json) :
    ∃ length, ∀ fields, (assembledUrl url fields).length = length + room fields := by
  obtain ⟨address, haddress⟩ : ∃ address, ∀ fields, assembledUrl url fields =
      if fields.isEmpty then address else address ++ "?" ++ "&".intercalate fields :=
    ⟨_, fun _ => rfl⟩
  refine ⟨address.length, fun fields => ?_⟩
  rw [haddress]
  by_cases h : fields = []
  · rw [h]
    rfl
  · rw [if_neg (by simpa using h), String.length_append, String.length_append,
      ← length_intercalate h, Nat.add_assoc, Nat.add_comm _ 1]
    rfl

theorem room_eq_of_assembledUrl_eq {url : Json} {fields fields' : List String}
    (h : assembledUrl url fields' = assembledUrl url fields) : room fields' = room fields := by
  obtain ⟨length, hlength⟩ := exists_length_assembledUrl_eq url
  have hsame := congrArg String.length h
  rw [hlength, hlength] at hsame
  exact Nat.add_left_cancel hsame

theorem assembledUrl_congr {url url' : Json}
    (h : ∀ name, name ≠ "query" → url'.member name = url.member name) (fields : List String) :
    assembledUrl url' fields = assembledUrl url fields := by
  simp only [assembledUrl, h "host" (by decide), h "port" (by decide), h "path" (by decide),
    h "protocol" (by decide)]

/-- Of the query only its fields matter, and those only if the address is put together. -/
theorem urlOf_congr {url url' : List (String × Json)}
    (h : ∀ name, name ≠ "query" → (Json.object url').member name = (Json.object url).member name)
    (hquery : ((Json.object url).member "raw").isTruthy = false →
      queryFields ((Json.object url').member "query") =
        queryFields ((Json.object url).member "query")) :
    urlOf (.object url') = urlOf (.object url) := by
  simp only [urlOf, h "raw" (by decide)]
  split
  · rfl
  · next hraw => rw [hquery (Bool.eq_false_iff.2 hraw), funext (assembledUrl_congr h)]

/-- An address with a field in use is put together. -/
theorem urlOf_of_mem_fieldsInUse {url entry : Json} (hraw : (url.member "raw").isTruthy = false)
    (hentry : entry ∈ fieldsInUse (url.member "query")) :
    urlOf url =
      .ok (.string (assembledUrl url ((fieldsInUse (url.member "query")).map formField))) := by
  have hlist : ∀ {query : Json}, entry ∈ fieldsInUse query → ¬IsQuantity query := by
    intro query hentry hquantity
    cases hquantity <;> cases hentry
  obtain ⟨members, hobject⟩ : ∃ members, url = .object members := by
    apply Json.exists_object_of_member_ne_null
    intro hnull
    rw [hnull] at hentry
    cases hentry
  exact urlOf_eq_ok hobject hraw (hlist hentry)

/-! ## Forms -/

theorem room_eq_of_formBody_eq {fields fields' : List String}
    (h : formBody fields' = formBody fields) : room fields' = room fields := by
  unfold formBody at h
  by_cases hnone : fields = []
  · by_cases hnone' : fields' = []
    · rw [hnone, hnone']
    · rw [if_neg hnone', if_pos hnone] at h
      cases h
  · by_cases hnone' : fields' = []
    · rw [if_pos hnone', if_neg hnone] at h
      cases h
    · rw [if_neg hnone', if_neg hnone] at h
      rw [← length_intercalate hnone', ← length_intercalate hnone, Json.string.inj h]

section Body

variable {body body' : Json}
  (h : ∀ name, name ≠ "urlencoded" → body'.member name = body.member name)

include h

/-- Only in a form do the fields of a form matter. -/
theorem bodyOf_eq_iff :
    bodyOf body' = bodyOf body ↔ (body.member "mode" = .string "urlencoded" →
      formBody ((objectsOf (body'.member "urlencoded")).map formField) =
        formBody ((objectsOf (body.member "urlencoded")).map formField)) := by
  have hmode := h "mode" (by decide)
  by_cases hform : body.member "mode" = .string "urlencoded"
  · rw [bodyOf_form hform, bodyOf_form (hmode.trans hform), forall_prop_of_true hform]
  · refine iff_of_true ?_ fun hmode => absurd hmode hform
    by_cases hraw : body.member "mode" = .string "raw"
    · rw [bodyOf_raw hraw, bodyOf_raw (hmode.trans hraw), h "raw" (by decide)]
    · rw [bodyOf_other hraw hform, bodyOf_other (hmode ▸ hraw) (hmode ▸ hform)]

theorem bodyOf_eq_or_contents : bodyOf body' = bodyOf body ∨
    ∃ content content' : Option String, bodyOf body = content.elim .null .string ∧
      bodyOf body' = content'.elim .null .string := by
  by_cases hform : body.member "mode" = .string "urlencoded"
  · have hcontent : ∀ {body : Json}, body.member "mode" = .string "urlencoded" →
        ∃ content : Option String, bodyOf body = content.elim .null .string := by
      intro body hform
      rw [exists_bodyOf_eq_iff, hform]
      simp
    obtain ⟨content, hbefore⟩ := hcontent hform
    obtain ⟨content', hafter⟩ := hcontent ((h "mode" (by decide)).trans hform)
    exact Or.inr ⟨content, content', hbefore, hafter⟩
  · exact Or.inl ((bodyOf_eq_iff h).2 fun hmode => absurd hmode hform)

end Body

/-! ## Headers -/

/-- Two lists of headers that come to the same: they name the same names in the same order, as far
as the first mention of each goes, and set each to the same value in the end. -/
structure SetAlike (header header' : Json) : Prop where
  names : ((headerPairs header').map Prod.fst).eraseDups =
    ((headerPairs header).map Prod.fst).eraseDups
  values : ∀ name, (headerPairs header').reverse.lookup name =
    (headerPairs header).reverse.lookup name

theorem headersOf_eq_iff {header header' : Json} :
    headersOf header' = headersOf header ↔ SetAlike header header' := by
  have hentries : headersOf header' = headersOf header ↔
      Assoc.ofPairs (headerPairs header') = Assoc.ofPairs (headerPairs header) := by
    rw [headersOf_eq, headersOf_eq]
    exact ⟨fun h => congrArg Headers.entries h, fun h => Headers.eq_of_entries_eq h⟩
  rw [hentries, Assoc.ofPairs_eq_iff]
  exact ⟨fun h => ⟨h.1, h.2⟩, fun h => ⟨h.names, h.values⟩⟩

end RequestForms.Collection
