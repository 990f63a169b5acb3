import Mathlib.Logic.Relation
import RequestForms.Proofs.Command.Effect

/-!
# The order of the parts

Parts of a command that are about different things say the same in either order. A method may be
named before or behind the parts that imply one, so that these are no exception; form fields and
JSON bodies are, as they look at the headers and at the body that is there.
-/

namespace RequestForms.Command

attribute [ext] Session

inductive Concern where
  | method
  | url
  | credentials
  | insecure
  | redirects
  | headers
  | body
  | typedBody
deriving DecidableEq, Repr

/-- Whether the order counts between parts that are about these things. -/
def Concern.meets : Concern → Concern → Bool
  | .typedBody, .headers | .headers, .typedBody => true
  | .typedBody, .body | .body, .typedBody => true
  | concern, other => concern = other

/-- What a part of a command is about. A body that comes with a header is a thing of its own. -/
def Item.concern : Item → Concern
  | .switch .location => .redirects
  | .switch .insecure => .insecure
  | .switch .head => .body
  | .switch .compressed => .headers
  | .setting .request _ => .method
  | .setting .header _ => .headers
  | .setting .data _ => .body
  | .setting .dataUrlencode _ => .typedBody
  | .setting .json _ => .typedBody
  | .setting .user _ => .credentials
  | .setting .userAgent _ => .headers
  | .setting .cookie _ => .headers
  | .setting .referer _ => .headers
  | .setting .url _ => .url
  | .word _ => .url

def Independent (a b : Item) : Prop := a.concern.meets b.concern = false

instance (a b : Item) : Decidable (Independent a b) :=
  inferInstanceAs (Decidable (a.concern.meets b.concern = false))

/-! ## What each concern leaves alone -/

namespace Item

theorem request?_eq_none {item : Item} (h : item.concern ≠ .method) : item.request? = none := by
  unfold request?
  split
  · exact absurd rfl h
  · rfl

theorem url?_eq_none {item : Item} (h : item.concern ≠ .url) : item.url? = none := by
  unfold url?
  split
  · exact absurd rfl h
  · exact absurd rfl h
  · rfl

theorem user?_eq_none {item : Item} (h : item.concern ≠ .credentials) : item.user? = none := by
  unfold user?
  split
  · exact absurd rfl h
  · rfl

/-- Only what is about the body implies a method. -/
theorem implied?_eq_none {item : Item} (hbody : item.concern ≠ .body)
    (htyped : item.concern ≠ .typedBody) : item.implied? = none := by
  unfold implied?
  split
  · exact absurd rfl hbody
  · exact absurd rfl htyped
  · exact absurd rfl htyped
  · exact absurd rfl hbody
  · rfl

theorem whole?_eq_none {item : Item} (hbody : item.concern ≠ .body)
    (htyped : item.concern ≠ .typedBody) : item.whole? = none := by
  unfold whole?
  split
  · exact absurd rfl hbody
  · exact absurd rfl htyped
  · rfl

theorem field?_eq_none {item : Item} (htyped : item.concern ≠ .typedBody) :
    item.field? = none := by
  unfold field?
  split
  · exact absurd rfl htyped
  · rfl

end Item

theorem Independent.ne_or_ne {a b : Item} (h : Independent a b) (concern : Concern) :
    a.concern ≠ concern ∨ b.concern ≠ concern := by
  by_cases ha : a.concern = concern
  · refine Or.inr fun hb => ?_
    rw [Independent, ha, hb] at h
    cases concern <;> cases h
  · exact Or.inl ha

/-- What a body with a header meets is not what both of two independent parts are about. -/
theorem Independent.ne_or_ne_of_meets {a b : Item} (h : Independent a b) {concern : Concern}
    (hmeets : concern.meets .typedBody = true) :
    (a.concern ≠ concern ∧ a.concern ≠ .typedBody) ∨
      (b.concern ≠ concern ∧ b.concern ≠ .typedBody) := by
  unfold Independent at h
  revert h
  cases concern with
  | headers | body | typedBody => cases a.concern <;> cases b.concern <;> decide
  | method | url | credentials | insecure | redirects => cases hmeets

namespace Session

/-! ## The headers -/

/-- The headers and the value that is remembered as the content type. -/
def labels (session : Session) : Headers × Option String := (session.headers, session.contentType)

theorem labels_implyMethod (method : String) (session : Session) :
    (session.implyMethod method).labels = session.labels := by
  rw [implyMethod_eq]
  rfl

theorem labels_setBody (body : String) (session : Session) :
    (session.setBody body).labels = session.labels :=
  labels_implyMethod _ _

theorem labels_setHeader_congr {session other : Session} (h : session.labels = other.labels)
    (name value : String) :
    (session.setHeader name value).labels = (other.setHeader name value).labels := by
  obtain ⟨hheaders, htype⟩ := Prod.mk.inj h
  simp only [labels, setHeader, hheaders, htype]

theorem labels_appendField (field : String) (session : Session) :
    (session.appendField field).labels =
      match session.contentType with
      | none | some "" =>
          (session.setHeader "Content-Type" "application/x-www-form-urlencoded").labels
      | some _ => session.labels := by
  have htype : ∀ body, (session.setBody body).contentType = session.contentType :=
    fun body => congrArg Prod.snd (labels_setBody body session)
  unfold appendField
  dsimp only
  rw [htype]
  rcases session.contentType with - | text
  · exact labels_setHeader_congr (labels_setBody _ _) _ _
  · by_cases hempty : text = ""
    · subst hempty
      exact labels_setHeader_congr (labels_setBody _ _) _ _
    · simp only
      exact labels_setBody _ _

section Congruence

variable {session other : Session} (h : session.labels = other.labels)
include h

theorem labels_supplyHeader_congr (name value : String) :
    (session.supplyHeader name value).labels = (other.supplyHeader name value).labels := by
  have hheaders : session.headers = other.headers := congrArg Prod.fst h
  unfold supplyHeader
  rw [hheaders]
  split
  · exact h
  · exact labels_setHeader_congr h name value

theorem labels_appendField_congr (field : String) :
    (session.appendField field).labels = (other.appendField field).labels := by
  have htype : session.contentType = other.contentType := congrArg Prod.snd h
  rw [labels_appendField, labels_appendField, htype]
  split
  · exact labels_setHeader_congr h _ _
  · exact labels_setHeader_congr h _ _
  · exact h

/-- What a part of a command does to the headers depends on the headers alone. -/
theorem labels_apply_congr (item : Item) :
    (session.apply item).labels = (other.apply item).labels := by
  cases item with
  | switch flag =>
      cases flag with
      | location => exact h
      | insecure => exact h
      | head => exact (labels_implyMethod _ _).trans (h.trans (labels_implyMethod _ _).symm)
      | compressed =>
          obtain ⟨hheaders, htype⟩ := Prod.mk.inj h
          simp only [apply, applySwitch, hheaders]
          split
          · exact h
          · exact congrArg (Prod.mk _) htype
  | setting flag value =>
      cases flag with
      | request => exact h
      | header =>
          simp only [apply, applySetting]
          split
          · exact h
          · exact labels_setHeader_congr h _ _
      | data => exact (labels_setBody _ _).trans (h.trans (labels_setBody _ _).symm)
      | dataUrlencode => exact labels_appendField_congr h value
      | json =>
          have hset : (session.setBody value).labels = (other.setBody value).labels := by
            rw [labels_setBody, labels_setBody, h]
          exact labels_supplyHeader_congr (labels_supplyHeader_congr hset _ _) _ _
      | user => exact h
      | userAgent => exact labels_setHeader_congr h _ _
      | cookie => exact labels_setHeader_congr h _ _
      | referer => exact labels_setHeader_congr h _ _
      | url => exact h
  | word text =>
      simp only [apply]
      split <;> exact h

end Congruence

theorem labels_apply {item : Item} (hheaders : item.concern ≠ .headers)
    (htyped : item.concern ≠ .typedBody) (session : Session) :
    (session.apply item).labels = session.labels := by
  cases item with
  | switch flag =>
      cases flag with
      | location => rfl
      | insecure => rfl
      | head => exact labels_implyMethod _ _
      | compressed => exact absurd rfl hheaders
  | setting flag value =>
      cases flag with
      | request => rfl
      | data => exact labels_setBody _ _
      | user => rfl
      | url => rfl
      | header | userAgent | cookie | referer => exact absurd rfl hheaders
      | dataUrlencode | json => exact absurd rfl htyped
  | word text =>
      simp only [apply]
      split <;> rfl

/-! ## Two parts -/

theorem labels_comm {a b : Item} (h : Independent a b) (session : Session) :
    ((session.apply a).apply b).labels = ((session.apply b).apply a).labels := by
  have hsplit := h.ne_or_ne_of_meets (rfl : Concern.meets .headers .typedBody = true)
  rcases hsplit with ⟨hheaders, htyped⟩ | ⟨hheaders, htyped⟩
  · rw [labels_apply hheaders htyped (session.apply b)]
    exact labels_apply_congr (labels_apply hheaders htyped session) b
  · rw [labels_apply hheaders htyped (session.apply a)]
    exact (labels_apply_congr (labels_apply hheaders htyped session) a).symm

/-- A method that is named stays, and what is implied changes nothing then. -/
theorem method_comm {a b : Item} (h : Independent a b) (session : Session) :
    ((session.apply a).apply b).method = ((session.apply b).apply a).method := by
  simp only [method_apply, methodAfter, methodIsExplicit_apply]
  have hsplit := h.ne_or_ne_of_meets (rfl : Concern.meets .body .typedBody = true)
  rcases hsplit with ⟨hbody, htyped⟩ | ⟨hbody, htyped⟩
  · rw [Item.implied?_eq_none hbody htyped]
    rcases h.ne_or_ne .method with ha | hb
    · simp [Item.request?_eq_none ha]
    · rw [Item.request?_eq_none hb]
      cases a.request? <;> cases b.implied? <;> simp
  · rw [Item.implied?_eq_none hbody htyped]
    rcases h.ne_or_ne .method with ha | hb
    · rw [Item.request?_eq_none ha]
      cases b.request? <;> cases a.implied? <;> simp
    · simp [Item.request?_eq_none hb]

theorem body_apply_of_concern {item : Item} (hbody : item.concern ≠ .body)
    (htyped : item.concern ≠ .typedBody) (session : Session) :
    (session.apply item).body = session.body := by
  rw [body_apply, Item.whole?_eq_none hbody htyped, Item.field?_eq_none htyped]
  rfl

theorem body_comm {a b : Item} (h : Independent a b) (session : Session) :
    ((session.apply a).apply b).body = ((session.apply b).apply a).body := by
  have hsplit := h.ne_or_ne_of_meets (rfl : Concern.meets .body .typedBody = true)
  rcases hsplit with ⟨hbody, htyped⟩ | ⟨hbody, htyped⟩
  · rw [body_apply_of_concern hbody htyped (session.apply b), body_apply (session.apply a),
      body_apply_of_concern hbody htyped session, body_apply session]
  · rw [body_apply_of_concern hbody htyped (session.apply a), body_apply (session.apply b),
      body_apply_of_concern hbody htyped session, body_apply session]

theorem url_comm {a b : Item} (h : Independent a b) (session : Session) :
    ((session.apply a).apply b).url = ((session.apply b).apply a).url := by
  simp only [url_apply]
  rcases h.ne_or_ne .url with ha | hb
  · rw [Item.url?_eq_none ha]
    rfl
  · rw [Item.url?_eq_none hb]
    rfl

theorem credentials_comm {a b : Item} (h : Independent a b) (session : Session) :
    ((session.apply a).apply b).credentials = ((session.apply b).apply a).credentials := by
  simp only [credentials_apply]
  rcases h.ne_or_ne .credentials with ha | hb
  · rw [Item.user?_eq_none ha, Option.map_none, Option.none_or, Option.none_or]
  · rw [Item.user?_eq_none hb, Option.map_none, Option.none_or, Option.none_or]

theorem apply_comm {a b : Item} (h : Independent a b) (session : Session) :
    (session.apply a).apply b = (session.apply b).apply a := by
  have hlabels := Prod.mk.inj (labels_comm h session)
  apply Session.ext
  case method => exact method_comm h session
  case methodIsExplicit =>
    simp only [methodIsExplicit_apply]
    exact Bool.or_left_comm _ _ _
  case url => exact url_comm h session
  case headers => exact hlabels.1
  case body => exact body_comm h session
  case contentType => exact hlabels.2
  case credentials => exact credentials_comm h session
  case followRedirects =>
    simp only [followRedirects_apply]
    exact Bool.or_left_comm _ _ _
  case insecure =>
    simp only [insecure_apply]
    exact Bool.or_left_comm _ _ _

end Session

/-! ## Many parts -/

/-- Parts of which two neighbours change places that are about different things. -/
inductive Swapped : List Item → List Item → Prop
  | intro (front behind : List Item) {a b : Item} (h : Independent a b) :
      Swapped (front ++ a :: b :: behind) (front ++ b :: a :: behind)

theorem Swapped.foldl_apply_eq {groups others : List Item} (h : Swapped groups others)
    (session : Session) : groups.foldl Session.apply session = others.foldl Session.apply session := by
  cases h with
  | intro front behind h =>
      rw [List.foldl_append, List.foldl_append, List.foldl_cons, List.foldl_cons, List.foldl_cons,
        List.foldl_cons, Session.apply_comm h]

theorem foldl_apply_eq_of_swaps {groups others : List Item}
    (h : Relation.ReflTransGen Swapped groups others) (session : Session) :
    groups.foldl Session.apply session = others.foldl Session.apply session := by
  induction h with
  | refl => rfl
  | tail _ hlast ih => exact ih.trans (hlast.foldl_apply_eq session)

/-- Parts about different things have the same effect in either order, and arguments whose parts
differ by such exchanges describe the same request. -/
theorem order_irrelevant :
    (∀ (session : Session) (a b : Item), Independent a b →
      (session.apply a).apply b = (session.apply b).apply a) ∧
    ∀ args others : List String, Relation.ReflTransGen Swapped (items args) (items others) →
      ofArguments args = ofArguments others :=
  ⟨fun session _ _ h => Session.apply_comm h session,
    fun _ _ h => congrArg Session.request (foldl_apply_eq_of_swaps h {})⟩

/-- The method may be named in front of what implies one or behind it. -/
theorem order_irrelevant_of_method_and_data :
    ((Session.apply {} (.switch .head)).apply (.setting .request "put") =
      (Session.apply {} (.setting .request "put")).apply (.switch .head)) ∧
    ofArguments ["-d", "x", "-X", "put", "-H", "A: 1", "/"] =
      ofArguments ["--request", "put", "-H", "A: 1", "-d", "x", "/"] := by
  refine ⟨order_irrelevant.1 _ _ _ (by decide), order_irrelevant.2 _ _ ?_⟩
  have hgroups : items ["-d", "x", "-X", "put", "-H", "A: 1", "/"] =
      [.setting .data "x", .setting .request "put", .setting .header "A: 1", .word "/"] := by
    decide +kernel
  have hothers : items ["--request", "put", "-H", "A: 1", "-d", "x", "/"] =
      [.setting .request "put", .setting .header "A: 1", .setting .data "x", .word "/"] := by
    decide +kernel
  rw [hgroups, hothers]
  have hmethod : Swapped
      [.setting .data "x", .setting .request "put", .setting .header "A: 1", .word "/"]
      [.setting .request "put", .setting .data "x", .setting .header "A: 1", .word "/"] :=
    .intro [] _ (by decide)
  exact .tail (.single hmethod) (.intro [_] _ (by decide))

/-- Form fields and JSON look at the headers and at the body that is there. -/
example :
    ofArguments ["--json", "1", "-d", "2"] ≠ ofArguments ["-d", "2", "--json", "1"] ∧
      ofArguments ["--data-urlencode", "a", "-H", "content-type: b"] ≠
        ofArguments ["-H", "content-type: b", "--data-urlencode", "a"] := by
  decide +kernel

end RequestForms.Command
