import RequestForms.Proofs.Command.ContentType

/-!
# Headers that come with a flag

A JSON body, a form field and the wish for a compressed answer each bring headers of their own.
The given headers stay as they are and in front of these, which only fill in what is missing. There
is one exception: an empty type of the body gives way to that of a form.
-/

namespace RequestForms

namespace Headers

/-- The pairs whose names no header has, in whatever case. -/
def missing (headers : Headers) (pairs : List (String × String)) : List (String × String) :=
  pairs.filter fun pair =>
    ∀ entry ∈ headers.entries, Text.toLower entry.1 ≠ Text.toLower pair.1

theorem has_iff {headers : Headers} {name : String} :
    headers.has name = true ↔
      ∃ entry ∈ headers.entries, Text.toLower entry.1 = Text.toLower name := by
  simp only [has, List.any_eq_true, Text.sameIgnoringCase, beq_iff_eq]

theorem missing_cons (headers : Headers) (pair : String × String)
    (pairs : List (String × String)) :
    headers.missing (pair :: pairs) = headers.missing [pair] ++ headers.missing pairs := by
  rw [missing, missing, missing, ← List.filter_append]
  rfl

theorem missing_singleton (headers : Headers) (pair : String × String) :
    headers.missing [pair] = if headers.has pair.1 then [] else [pair] := by
  have hdecide : (decide (∀ entry ∈ headers.entries,
      Text.toLower entry.1 ≠ Text.toLower pair.1)) = !headers.has pair.1 := by
    rw [Bool.eq_iff_iff, decide_eq_true_iff, Bool.not_eq_true', ← Bool.not_eq_true, has_iff]
    simp only [not_exists, not_and, ne_eq]
  rw [missing, List.filter_cons, List.filter_nil, hdecide]
  cases headers.has pair.1 <;> rfl

/-- A name that is missing in every case is missing as it stands. -/
theorem not_mem_names_of_has {headers : Headers} {name : String} (h : headers.has name = false) :
    name ∉ headers.entries.map Prod.fst := by
  intro hmem
  obtain ⟨entry, hentry, rfl⟩ := List.mem_map.1 hmem
  rw [has_iff.2 ⟨entry, hentry, rfl⟩] at h
  cases h

theorem entries_set_of_not_mem {headers : Headers} {name : String}
    (h : name ∉ headers.entries.map Prod.fst) (value : String) :
    (headers.set name value).entries = headers.entries ++ [(name, value)] :=
  Assoc.set_of_not_mem h value

end Headers

namespace Command

namespace Session

/-! ## Supplying a header -/

theorem entries_supplyHeader (name value : String) (session : Session) :
    (session.supplyHeader name value).headers.entries =
      session.headers.entries ++ session.headers.missing [(name, value)] := by
  rw [Headers.missing_singleton, supplyHeader]
  cases hhas : session.headers.has name with
  | true => simp
  | false => exact Headers.entries_set_of_not_mem (Headers.not_mem_names_of_has hhas) value

/-- The headers that are there behind a supplied one. -/
theorem has_supplyHeader (name value other : String) (session : Session) :
    (session.supplyHeader name value).headers.has other = true ↔
      session.headers.has other = true ∨ Text.toLower name = Text.toLower other := by
  rw [Headers.has_iff, entries_supplyHeader, Headers.missing_singleton]
  cases hhas : session.headers.has name with
  | true =>
      obtain ⟨entry, hentry, hname⟩ := Headers.has_iff.1 hhas
      rw [if_pos rfl, List.append_nil, ← Headers.has_iff]
      refine ⟨Or.inl, fun h => h.elim id fun hother => ?_⟩
      exact Headers.has_iff.2 ⟨entry, hentry, hname.trans hother⟩
  | false => simp [Headers.has_iff]

theorem supplyHeader_of_has {name : String} {session : Session}
    (h : session.headers.has name = true) (value : String) :
    session.supplyHeader name value = session := by
  rw [supplyHeader, if_pos h]

/-! ## The three flags -/

theorem headers_eq_of_labels_eq {session other : Session} (h : session.labels = other.labels) :
    session.headers = other.headers :=
  congrArg Prod.fst h

def formType : String × String := ("Content-Type", "application/x-www-form-urlencoded")

theorem entries_json (body : String) (session : Session) :
    (session.applySetting body .json).headers.entries =
      session.headers.entries ++ session.headers.missing
        [("Content-Type", "application/json"), ("Accept", "application/json")] := by
  have hnames : ¬Text.toLower "Content-Type" = Text.toLower "Accept" := by decide
  have haccept : (session.supplyHeader "Content-Type" "application/json").headers.has "Accept" =
      session.headers.has "Accept" := by
    rw [Bool.eq_iff_iff, has_supplyHeader, or_iff_left hnames]
  have hmissing : (session.supplyHeader "Content-Type" "application/json").headers.missing
      [("Accept", "application/json")] =
        session.headers.missing [("Accept", "application/json")] := by
    rw [Headers.missing_singleton, Headers.missing_singleton, haccept]
  rw [headers_eq_of_labels_eq (labels_applySetting_json body session), entries_supplyHeader,
    entries_supplyHeader, hmissing, List.append_assoc, ← Headers.missing_cons]

theorem entries_compressed (session : Session) :
    (session.applySwitch .compressed).headers.entries =
      session.headers.entries ++ session.headers.missing
        [("Accept-Encoding", "gzip, deflate, br")] := by
  rw [headers_eq_of_labels_eq (labels_compressed session), entries_supplyHeader]

theorem labels_appendField_of_empty {session : Session}
    (h : session.contentType.getD "" = "") (field : String) :
    (session.appendField field).labels =
      (session.headers.set formType.1 formType.2, some formType.2) := by
  have hname : Text.toLower formType.1 = "content-type" := by decide
  have hset : (session.setHeader formType.1 formType.2).labels =
      (session.headers.set formType.1 formType.2, some formType.2) := by
    rw [labels, setHeader, if_pos hname]
  rw [labels_appendField, ← hset]
  cases hc : session.contentType with
  | none => rfl
  | some text =>
      rw [hc] at h
      obtain rfl : text = "" := h
      rfl

theorem labels_appendField_of_ne_empty {session : Session} {type : String}
    (h : session.contentType = some type) (hne : type ≠ "") (field : String) :
    (session.appendField field).labels = session.labels := by
  rw [labels_appendField, h]
  split
  · next hnone => cases hnone
  · next hempty => exact absurd (Option.some.inj hempty) hne
  · rfl

/-- Two uses of one of the three flags. -/
inductive Repeats : Item → Item → Prop
  | json (body other : String) : Repeats (.setting .json body) (.setting .json other)
  | compressed : Repeats (.switch .compressed) (.switch .compressed)
  | dataUrlencode (field other : String) :
      Repeats (.setting .dataUrlencode field) (.setting .dataUrlencode other)

theorem labels_json_again (body other : String) (session : Session) :
    ((session.applySetting body .json).applySetting other .json).labels =
      (session.applySetting body .json).labels := by
  have hlabels := labels_applySetting_json body session
  have hheaders := headers_eq_of_labels_eq hlabels
  have htype : (session.applySetting body .json).headers.has "Content-Type" = true := by
    rw [hheaders, has_supplyHeader, has_supplyHeader]
    exact Or.inl (Or.inr rfl)
  have haccept : (session.applySetting body .json).headers.has "Accept" = true := by
    rw [hheaders, has_supplyHeader]
    exact Or.inr rfl
  rw [labels_applySetting_json, supplyHeader_of_has htype, supplyHeader_of_has haccept]

theorem labels_compressed_again (session : Session) :
    ((session.applySwitch .compressed).applySwitch .compressed).labels =
      (session.applySwitch .compressed).labels := by
  have hhas : (session.applySwitch .compressed).headers.has "Accept-Encoding" = true := by
    rw [headers_eq_of_labels_eq (labels_compressed session), has_supplyHeader]
    exact Or.inr rfl
  rw [labels_compressed, supplyHeader_of_has hhas]

theorem labels_appendField_again (field other : String) (session : Session) :
    ((session.appendField field).appendField other).labels = (session.appendField field).labels := by
  by_cases h : session.contentType.getD "" = ""
  · have htype : (session.appendField field).contentType = some formType.2 :=
      congrArg Prod.snd (labels_appendField_of_empty h field)
    exact labels_appendField_of_ne_empty htype (by decide) other
  · cases htype : session.contentType with
    | none => exact absurd (by rw [htype]; rfl) h
    | some type =>
        have hne : type ≠ "" := by rwa [htype, Option.getD_some] at h
        have hlabels := labels_appendField_of_ne_empty htype hne field
        have hnext : (session.appendField field).contentType = some type :=
          (congrArg Prod.snd hlabels).trans htype
        exact labels_appendField_of_ne_empty hnext hne other

/-- The second of two uses changes neither the headers nor the remembered type. -/
theorem labels_apply_again {item other : Item} (h : Repeats item other) (session : Session) :
    ((session.apply item).apply other).labels = (session.apply item).labels := by
  cases h with
  | json body other => exact labels_json_again body other session
  | compressed => exact labels_compressed_again session
  | dataUrlencode field other => exact labels_appendField_again field other session

/-- What a form field does to the headers, by the type of the body that is remembered: it brings its
own header unless there is a type already, and an empty one of the same spelling is overwritten. -/
structure TakesField (session next : Session) : Prop where
  of_none : session.contentType = none →
    next.headers.entries = session.headers.entries ++ [formType]
  of_empty : session.contentType = some "" →
    "Content-Type" ∉ session.headers.entries.map Prod.fst →
      next.headers.entries = session.headers.entries ++ [formType]
  of_empty_of_mem : session.contentType = some "" →
    "Content-Type" ∈ session.headers.entries.map Prod.fst →
      next.headers.entries = session.headers.entries.map fun entry =>
        (entry.1, if entry.1 = "Content-Type" then formType.2 else entry.2)
  of_ne_empty : ∀ type, session.contentType = some type → type ≠ "" →
    next.headers.entries = session.headers.entries

theorem takesField_appendField {session : Session}
    (h : session.contentType = none → "Content-Type" ∉ session.headers.entries.map Prod.fst)
    (field : String) : TakesField session (session.appendField field) := by
  have hset : session.contentType.getD "" = "" → (session.appendField field).headers =
      session.headers.set "Content-Type" formType.2 := fun hempty =>
    congrArg Prod.fst (labels_appendField_of_empty hempty field)
  exact {
    of_none := fun hnone => by
      rw [hset (by rw [hnone]; rfl), Headers.entries_set_of_not_mem (h hnone)]
      rfl
    of_empty := fun hempty hmem => by
      rw [hset (by rw [hempty]; rfl), Headers.entries_set_of_not_mem hmem]
      rfl
    of_empty_of_mem := fun hempty hmem => by
      rw [hset (by rw [hempty]; rfl), Headers.entries_set]
      exact Assoc.set_of_mem session.headers.nodup_names hmem _
    of_ne_empty := fun type htype hne => by
      rw [headers_eq_of_labels_eq (labels_appendField_of_ne_empty htype hne field)] }

/-- In a run no type is remembered only if no header gives one. -/
theorem not_mem_names_of_contentType_eq_none {items : List Item}
    (h : (items.foldl apply {}).contentType = none) :
    "Content-Type" ∉ (items.foldl apply {}).headers.entries.map Prod.fst := by
  intro hmem
  have hname := (typeAgrees_foldl_apply items).eq_none_iff.1 h "Content-Type" hmem
  exact absurd hname (by decide)

/-- After any parts of a command, the headers that a flag brings stand behind the given ones and
are missing among these, an empty type of the body is all that is overwritten, and the same flag
brings nothing more when it comes again. -/
theorem implied_headers (items : List Item) :
    let session := items.foldl apply {}
    (∀ body, (session.apply (.setting .json body)).headers.entries =
      session.headers.entries ++ session.headers.missing
        [("Content-Type", "application/json"), ("Accept", "application/json")]) ∧
    (session.apply (.switch .compressed)).headers.entries =
      session.headers.entries ++ session.headers.missing
        [("Accept-Encoding", "gzip, deflate, br")] ∧
    (∀ field, TakesField session (session.apply (.setting .dataUrlencode field))) ∧
    ∀ item other, Repeats item other →
      ((session.apply item).apply other).headers = (session.apply item).headers ∧
        ((session.apply item).apply other).contentType = (session.apply item).contentType := by
  intro session
  refine ⟨fun body => entries_json body session, entries_compressed session,
    fun field => takesField_appendField not_mem_names_of_contentType_eq_none field,
    fun item other h => Prod.mk.inj (labels_apply_again h session)⟩

/-- A type of the body in another spelling stays alone, and a second body brings nothing. -/
theorem implied_headers_of_other_spelling :
    let session : Session :=
      [.setting .header "content-TYPE: a/b", .setting .userAgent "c"].foldl apply {}
    let next := session.apply (.setting .json "1")
    Repeats (.setting .json "1") (.setting .json "2") ∧
      next.headers.entries = [("content-TYPE", "a/b"), ("User-Agent", "c")] ++
        [("Accept", "application/json")] ∧
      (next.apply (.setting .json "2")).headers = next.headers ∧
      (next.apply (.setting .json "2")).contentType = next.contentType := by
  intro session next
  have hrepeats : Repeats (.setting .json "1") (.setting .json "2") := .json "1" "2"
  obtain ⟨hjson, -, -, hagain⟩ :=
    implied_headers [.setting .header "content-TYPE: a/b", .setting .userAgent "c"]
  obtain ⟨hheaders, htype⟩ := hagain _ _ hrepeats
  refine ⟨hrepeats, (hjson "1").trans ?_, hheaders, htype⟩
  decide +kernel

end Session

end Command

end RequestForms
