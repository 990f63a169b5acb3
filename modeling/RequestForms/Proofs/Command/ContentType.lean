import RequestForms.Proofs.Command.Order
import RequestForms.Proofs.Command.RoundTrip

/-!
# The remembered content type

A session remembers the type of its body beside the headers. The parts of a command write headers
one after another, and what is remembered is the value of the one that was written last among those
that give the type of the body, in whatever spelling.
-/

namespace RequestForms.Command

namespace Session

def setHeaders (pairs : List (String × String)) (session : Session) : Session :=
  pairs.foldl (fun session pair => session.setHeader pair.1 pair.2) session

theorem setHeaders_append (pairs more : List (String × String)) (session : Session) :
    session.setHeaders (pairs ++ more) = (session.setHeaders pairs).setHeaders more :=
  List.foldl_append

theorem labels_setHeaders (pairs : List (String × String)) (session : Session) :
    (session.setHeaders pairs).labels =
      (pairs.foldl (fun headers pair => headers.set pair.1 pair.2) session.headers,
        (Headers.contentTypeOf? pairs).or session.contentType) := by
  rw [setHeaders, foldl_setHeader]
  rfl

theorem labels_setHeaders_congr {session other : Session} (h : session.labels = other.labels)
    (pairs : List (String × String)) :
    (session.setHeaders pairs).labels = (other.setHeaders pairs).labels := by
  obtain ⟨hheaders, htype⟩ := Prod.mk.inj h
  rw [labels_setHeaders, labels_setHeaders, hheaders, htype]

/-! ## What one part writes -/

/-- A header that is written unless it is present in some spelling. -/
def supplied (name value : String) (session : Session) : List (String × String) :=
  if session.headers.has name then [] else [(name, value)]

def written (session : Session) : Item → List (String × String)
  | .switch .compressed => session.supplied "Accept-Encoding" "gzip, deflate, br"
  | .setting .header line => (headerOfLine? line).toList
  | .setting .dataUrlencode _ =>
      match session.contentType with
      | none | some "" => [("Content-Type", "application/x-www-form-urlencoded")]
      | some _ => []
  | .setting .json _ =>
      session.supplied "Content-Type" "application/json" ++
        (session.supplyHeader "Content-Type" "application/json").supplied
          "Accept" "application/json"
  | .setting .userAgent value => [("User-Agent", value)]
  | .setting .cookie value => [("Cookie", value)]
  | .setting .referer value => [("Referer", value)]
  | .switch .location | .switch .insecure | .switch .head => []
  | .setting .request _ | .setting .data _ | .setting .user _ | .setting .url _ => []
  | .word _ => []

theorem supplyHeader_eq_setHeaders (name value : String) (session : Session) :
    session.supplyHeader name value = session.setHeaders (session.supplied name value) := by
  unfold supplyHeader supplied
  split <;> rfl

theorem labels_compressed (session : Session) :
    (session.applySwitch .compressed).labels =
      (session.supplyHeader "Accept-Encoding" "gzip, deflate, br").labels := by
  -- this name gives no type of the body, so that it can be set as any other
  have hname : Text.toLower "Accept-Encoding" ≠ "content-type" := by decide
  simp only [applySwitch, supplyHeader]
  split
  · rfl
  · rw [setHeader, if_neg hname]

theorem labels_dataUrlencode (field : String) (session : Session) :
    (session.appendField field).labels =
      (session.setHeaders (session.written (.setting .dataUrlencode field))).labels := by
  rw [labels_appendField, written]
  cases session.contentType with
  | none => rfl
  | some text =>
      by_cases hempty : text = ""
      · rw [hempty]
        rfl
      · simp only
        rfl

theorem labels_applySetting_json (body : String) (session : Session) :
    (session.applySetting body .json).labels =
      ((session.supplyHeader "Content-Type" "application/json").supplyHeader
        "Accept" "application/json").labels :=
  labels_supplyHeader_congr (labels_supplyHeader_congr (labels_setBody body session) _ _) _ _

theorem labels_json (body : String) (session : Session) :
    (session.applySetting body .json).labels =
      (session.setHeaders (session.written (.setting .json body))).labels := by
  rw [written, setHeaders_append, ← supplyHeader_eq_setHeaders, ← supplyHeader_eq_setHeaders]
  exact labels_applySetting_json body session

/-- All that a part of a command does to the headers is to set the ones that it writes. -/
theorem labels_apply_eq (session : Session) (item : Item) :
    (session.apply item).labels = (session.setHeaders (session.written item)).labels := by
  cases item with
  | switch flag =>
      cases flag with
      | location => rfl
      | insecure => rfl
      | head => exact labels_implyMethod _ _
      | compressed =>
          rw [written, ← supplyHeader_eq_setHeaders]
          exact labels_compressed session
  | setting flag value =>
      cases flag with
      | request => rfl
      | header =>
          simp only [apply, applySetting, written]
          split
          · next hnone => rw [hnone]; rfl
          · next hsome => rw [hsome]; rfl
      | data => exact labels_setBody _ _
      | dataUrlencode => exact labels_dataUrlencode value session
      | json => exact labels_json value session
      | user => rfl
      | userAgent => rfl
      | cookie => rfl
      | referer => rfl
      | url => rfl
  | word text =>
      simp only [apply]
      split <;> rfl

/-! ## What a whole run writes -/

def history (session : Session) : List Item → List (String × String)
  | [] => []
  | item :: items => session.written item ++ (session.apply item).history items

theorem labels_foldl_apply (items : List Item) (session : Session) :
    (items.foldl apply session).labels = (session.setHeaders (session.history items)).labels := by
  induction items generalizing session with
  | nil => rfl
  | cons item items ih =>
      rw [List.foldl_cons, ih, history, setHeaders_append]
      exact labels_setHeaders_congr (labels_apply_eq session item) _

end Session

/-! ## What is remembered -/

/-- A content type that agrees with headers that were written one after another. -/
structure TypeAgrees (written : List (String × String)) (headers : Headers)
    (contentType : Option String) : Prop where
  nodup_names : (headers.entries.map Prod.fst).Nodup
  headers_eq : headers = Headers.ofPairs written
  eq_none_iff : contentType = none ↔
    ∀ name ∈ headers.entries.map Prod.fst, Headers.isContentType name = false
  exists_last : ∀ value, contentType = some value → ∃ name,
    ((written.map Prod.fst).filter Headers.isContentType).getLast? = some name ∧
      headers.entries.lookup name = some value

theorem contentTypeOf?_eq_none_iff {pairs : List (String × String)} :
    Headers.contentTypeOf? pairs = none ↔
      ∀ name ∈ pairs.map Prod.fst, Headers.isContentType name = false := by
  simp [Headers.contentTypeOf?]

theorem getLast?_filter_map_fst {pairs : List (String × String)} {name value : String}
    (h : (pairs.filter fun pair => Headers.isContentType pair.1).getLast? = some (name, value)) :
    ((pairs.map Prod.fst).filter Headers.isContentType).getLast? = some name := by
  rw [List.filter_map, List.getLast?_map]
  exact congrArg (Option.map Prod.fst) h

theorem typeAgrees_ofPairs (pairs : List (String × String)) :
    TypeAgrees pairs (Headers.ofPairs pairs) (Headers.contentTypeOf? pairs) where
  nodup_names := Assoc.nodup_keys_ofPairs pairs
  headers_eq := rfl
  eq_none_iff := by
    rw [contentTypeOf?_eq_none_iff]
    exact forall_congr' fun name => imp_congr_left Assoc.mem_keys_ofPairs.symm
  exists_last := by
    intro value hvalue
    obtain ⟨⟨name, text⟩, hlast, rfl⟩ := Option.map_eq_some_iff.1 hvalue
    exact ⟨name, getLast?_filter_map_fst hlast, Assoc.lookup_ofPairs_of_getLast? hlast⟩

theorem typeAgrees_foldl_apply (items : List Item) :
    TypeAgrees (Session.history {} items) (items.foldl Session.apply {}).headers
      (items.foldl Session.apply {}).contentType := by
  obtain ⟨hheaders, htype⟩ := Prod.mk.inj
    ((Session.labels_foldl_apply items {}).trans (Session.labels_setHeaders _ _))
  have hpairs : (items.foldl Session.apply {}).headers =
      Headers.ofPairs (Session.history {} items) :=
    hheaders.trans (Headers.eq_of_entries_eq (Headers.entries_foldl_set _ _))
  rw [hpairs, htype, Option.or_none]
  exact typeAgrees_ofPairs _

/-- After any parts of a command, and so in the request that any command describes, the remembered
content type is the current value of the header that was written last among those that give the
type of the body. -/
theorem contentType_agrees :
    (∀ items : List Item, TypeAgrees (Session.history {} items)
      (items.foldl Session.apply {}).headers (items.foldl Session.apply {}).contentType) ∧
    ∀ text : String, TypeAgrees (Session.history {} (items (arguments text)))
      (read text).headers (read text).contentType := by
  refine ⟨typeAgrees_foldl_apply, fun text => ?_⟩
  have hread : read text = ((items (arguments text)).foldl Session.apply {}).request := rfl
  rw [hread]
  generalize items (arguments text) = groups
  exact typeAgrees_foldl_apply groups

/-- An empty type gives way to a form field, and the old spelling stays beside the new one. -/
example :
    let request := read "curl -H 'content-type:' --data-urlencode a -H 'content-type: b'"
    request.headers.entries =
        [("content-type", "b"), ("Content-Type", "application/x-www-form-urlencoded")] ∧
      request.contentType = some "b" := by
  decide +kernel

end RequestForms.Command
