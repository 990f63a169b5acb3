import Mathlib.Data.List.DropRight
import RequestForms.Proofs.Command.Effect
import RequestForms.Proofs.Command.Items
import RequestForms.Proofs.Shell.Words
import RequestForms.Proofs.Text.Lines

/-!
# The last part counts

A command says the same thing several times at most, and then the last time counts. Only a method
that is implied gives way to one that is named, and form fields are added to what is there.
-/

namespace RequestForms.Command

/-- Where each step writes a value or leaves it, the last one that is written stays. -/
theorem foldl_last_write {σ β α : Type} {step : σ → β → σ} (read : σ → Option α)
    (write : β → Option α) (h : ∀ s b, read (step s b) = (write b).or (read s)) (bs : List β)
    (s : σ) : read (bs.foldl step s) = (bs.filterMap write).getLast?.or (read s) := by
  induction bs using List.reverseRecOn with
  | nil => rfl
  | append_singleton bs b ih =>
      rw [List.foldl_append, List.foldl_cons, List.foldl_nil, h, ih, List.filterMap_append,
        List.getLast?_append, Option.or_assoc]
      cases hwrite : write b <;> simp [hwrite]

/-! ## The method -/

def methodOf (items : List Item) : String :=
  match (items.filterMap Item.request?).getLast? with
  | some method => Text.toUpper method
  | none => (items.filterMap Item.implied?).getLast?.getD "GET"

namespace Session

theorem methodIsExplicit_foldl_apply (items : List Item) :
    (items.foldl apply {}).methodIsExplicit = (items.filterMap Item.request?).getLast?.isSome := by
  induction items using List.reverseRecOn with
  | nil => rfl
  | append_singleton items item ih =>
      rw [List.foldl_append, List.foldl_cons, List.foldl_nil, methodIsExplicit_apply, ih,
        List.filterMap_append, List.getLast?_append]
      cases hrequest : item.request? <;> simp [hrequest]

theorem method_foldl_apply (items : List Item) :
    (items.foldl apply {}).method = methodOf items := by
  induction items using List.reverseRecOn with
  | nil => rfl
  | append_singleton items item ih =>
      rw [List.foldl_append, List.foldl_cons, List.foldl_nil, method_apply, methodAfter,
        methodIsExplicit_foldl_apply, ih, methodOf, methodOf, List.filterMap_append,
        List.filterMap_append, List.getLast?_append, List.getLast?_append]
      cases hrequest : item.request? with
      | some method => simp [hrequest]
      | none =>
          cases himplied : item.implied? with
          | none => simp [hrequest, himplied]
          | some method =>
              -- what is implied counts only if nothing before it named a method
              cases hlast : (items.filterMap Item.request?).getLast? <;>
                simp [hrequest, himplied]

/-! ## The address, the credentials and the switches -/

theorem url_foldl_apply (items : List Item) :
    (items.foldl apply {}).url = (items.filterMap Item.url?).getLast?.getD "" := by
  have hstep : ∀ (session : Session) (item : Item),
      some (session.apply item).url = item.url?.or (some session.url) := by
    intro session item
    rw [url_apply, Option.or_some]
  have hrun := foldl_last_write (fun session : Session => some session.url) Item.url? hstep items {}
  rw [Option.or_some] at hrun
  exact Option.some.inj hrun

theorem credentials_foldl_apply (items : List Item) :
    (items.foldl apply {}).credentials =
      ((items.filterMap Item.user?).getLast?).map credentialsOf := by
  rw [foldl_last_write credentials (fun item => item.user?.map credentialsOf) credentials_apply,
    Option.or_none, ← List.getLast?_map, List.map_filterMap]

theorem foldl_apply_switch {read : Session → Bool} {switch : Item}
    (h : ∀ session item, read (apply session item) = (item = switch || read session : Bool))
    (items : List Item) (session : Session) :
    read (items.foldl apply session) = (switch ∈ items || read session : Bool) := by
  induction items generalizing session with
  | nil => simp
  | cons item items ih =>
      rw [List.foldl_cons, ih, h, ← Bool.or_assoc, ← Bool.decide_or]
      simp only [List.mem_cons, eq_comm, or_comm]

theorem insecure_foldl_apply (items : List Item) :
    (items.foldl apply {}).insecure = true ↔ .switch .insecure ∈ items := by
  rw [foldl_apply_switch insecure_apply]
  simp

theorem followRedirects_foldl_apply (items : List Item) :
    (items.foldl apply {}).followRedirects = true := by
  rw [foldl_apply_switch followRedirects_apply]
  exact Bool.or_true _

end Session

/-! ## The body -/

/-- What the body is joined from: the last text that was made the whole body, if there is one, and
the form fields behind it. -/
def bodyPieces (items : List Item) : List String :=
  (items.filterMap Item.whole?).getLast?.toList ++
    (items.rtakeWhile fun item => item.whole?.isNone).filterMap Item.field?

def bodyOf (items : List Item) : Option String :=
  if bodyPieces items = [] then none else some ("&".intercalate (bodyPieces items))

theorem bodyPieces_concat (items : List Item) (item : Item) :
    bodyPieces (items ++ [item]) =
      match item.whole? with
      | some text => [text]
      | none => bodyPieces items ++ item.field?.toList := by
  unfold bodyPieces
  rw [List.filterMap_append, List.getLast?_append]
  cases hwhole : item.whole? with
  | some text => simp [hwhole, List.rtakeWhile_concat_neg]
  | none =>
      rw [List.rtakeWhile_concat_pos _ _ _ (by rw [hwhole]; rfl), List.filterMap_append]
      cases hfield : item.field? <;> simp [hwhole, hfield]

def Item.FillsBody (item : Item) : Prop := item.whole? ≠ some "" ∧ item.field? ≠ some ""

theorem ne_empty_of_mem_bodyPieces {items : List Item} (h : ∀ item ∈ items, item.FillsBody) :
    ∀ piece ∈ bodyPieces items, piece ≠ "" := by
  rintro piece hmem rfl
  rcases List.mem_append.1 hmem with hwhole | hfield
  · obtain ⟨item, hitem, hempty⟩ :=
      List.mem_filterMap.1 (List.mem_of_getLast? (Option.mem_toList.1 hwhole))
    exact (h item hitem).1 hempty
  · obtain ⟨item, hitem, hempty⟩ := List.mem_filterMap.1 hfield
    exact (h item ((List.rtakeWhile_suffix _ _).subset hitem)).2 hempty

theorem extended_bodyOf {items : List Item} (h : ∀ item ∈ items, item.FillsBody) (field : String) :
    extended (bodyOf items) field = "&".intercalate (bodyPieces items ++ [field]) := by
  by_cases hnil : bodyPieces items = []
  · rw [bodyOf, if_pos hnil, hnil, List.nil_append, String.intercalate_singleton]
    rfl
  · -- the pieces are not empty, so that what they are joined to is not empty either
    obtain ⟨first, more, hpieces⟩ := List.exists_cons_of_ne_nil hnil
    have hfirst : first ≠ "" := ne_empty_of_mem_bodyPieces h first (by rw [hpieces]; simp)
    have hjoined : "&".intercalate (bodyPieces items) ≠ "" := by
      rw [hpieces, ne_eq, ← String.toList_eq_nil_iff, String.toList_intercalate, List.map_cons,
        Text.intercalate_cons]
      exact List.append_ne_nil_of_left_ne_nil (by simpa using hfirst) _
    rw [Text.intercalate_concat hnil, bodyOf, if_neg hnil, extended_some hjoined]

theorem Session.body_foldl_apply {items : List Item} (h : ∀ item ∈ items, item.FillsBody) :
    (items.foldl apply {}).body = bodyOf items := by
  induction items using List.reverseRecOn with
  | nil => rfl
  | append_singleton items item ih =>
      have hitems : ∀ item ∈ items, item.FillsBody := fun i hi => h i (List.mem_append_left _ hi)
      rw [List.foldl_append, List.foldl_cons, List.foldl_nil, body_apply, ih hitems]
      conv_rhs => rw [bodyOf, bodyPieces_concat]
      cases hwhole : item.whole? with
      | some text => simp [String.intercalate_singleton]
      | none =>
          cases hfield : item.field? with
          | some field => simp [extended_bodyOf hitems]
          | none => simp [bodyOf]

/-! ## The whole command -/

theorem ne_empty_of_setting_mem_items {args : List String} (h : ∀ word ∈ args, word ≠ "")
    {flag : Setting} {value : String} (hmem : .setting flag value ∈ items args) : value ≠ "" := by
  obtain ⟨front, word, behind, rfl, -⟩ := exists_of_setting_mem_items hmem
  exact h value (by simp)

theorem fillsBody_of_mem_items {args : List String} (h : ∀ word ∈ args, word ≠ "") :
    ∀ item ∈ items args, item.FillsBody := by
  intro item hmem
  constructor
  · intro hwhole
    unfold Item.whole? at hwhole
    split at hwhole
    · exact ne_empty_of_setting_mem_items h hmem (Option.some.inj hwhole)
    · exact ne_empty_of_setting_mem_items h hmem (Option.some.inj hwhole)
    · cases hwhole
  · intro hfield
    unfold Item.field? at hfield
    split at hfield
    · exact ne_empty_of_setting_mem_items h hmem (Option.some.inj hfield)
    · cases hfield

/-- What stands before and behind the first colon of a text, or all of it without a password. -/
def SplitsAtColon (text : String) (credentials : Credentials) : Prop :=
  (text = credentials.user ++ ":" ++ credentials.password ∧ ':' ∉ credentials.user.toList) ∨
    (':' ∉ text.toList ∧ credentials = ⟨text, ""⟩)

theorem splitsAtColon_credentialsOf (text : String) :
    SplitsAtColon text (Session.credentialsOf text) := by
  unfold Session.credentialsOf
  by_cases hcolon : ':' ∈ text.toList
  · obtain ⟨user, password, htext, huser⟩ := List.eq_append_cons_of_mem hcolon
    rw [htext, Text.splitFirst?_append huser]
    refine Or.inl ⟨?_, by rwa [String.toList_ofList]⟩
    rw [← String.toList_inj, htext]
    simp
  · refine Or.inr ⟨hcolon, ?_⟩
    split
    · rfl
    · next user password hsplit =>
        rw [(Text.eq_append_of_splitFirst? hsplit).1] at hcolon
        exact absurd (by simp) hcolon

theorem rel_map_credentialsOf (text : Option String) :
    Option.Rel SplitsAtColon text (text.map Session.credentialsOf) := by
  cases text with
  | none => exact .none
  | some text => exact .some (splitsAtColon_credentialsOf text)

/-- A request that says what the last parts of each kind say. -/
structure LastWins (groups : List Item) (request : Request) : Prop where
  method : request.method = Method.ofString (methodOf groups)
  url : request.url = (groups.filterMap Item.url?).getLast?.getD ""
  body : request.body = bodyOf groups
  credentials : Option.Rel SplitsAtColon (groups.filterMap Item.user?).getLast? request.credentials
  followRedirects : request.followRedirects = true
  insecure : request.insecure = true ↔ .switch .insecure ∈ groups

/-- The words of a command are taken together in one way, and what the command says is said by the
last parts of each kind. -/
theorem lastWins_read (text : String) :
    ∃ groups, (∀ other, Grouped (arguments text) other ↔ other = groups) ∧
      LastWins groups (read text) := by
  refine ⟨items (arguments text), fun other => grouped_iff, ?_⟩
  have hwords : ∀ word ∈ arguments text, word ≠ "" := fun word => Shell.ne_empty_of_mem_words
  have hread : read text = ((items (arguments text)).foldl Session.apply {}).request := rfl
  rw [hread]
  generalize hgroups : items (arguments text) = groups
  have hbody : ∀ item ∈ groups, item.FillsBody := hgroups ▸ fillsBody_of_mem_items hwords
  have hcredentials := rel_map_credentialsOf (groups.filterMap Item.user?).getLast?
  rw [← Session.credentials_foldl_apply] at hcredentials
  exact {
    method := congrArg Method.ofString (Session.method_foldl_apply groups)
    url := Session.url_foldl_apply groups
    body := Session.body_foldl_apply hbody
    credentials := hcredentials
    followRedirects := Session.followRedirects_foldl_apply groups
    insecure := Session.insecure_foldl_apply groups }

end RequestForms.Command
