import RequestForms.Command.Session

/-!
# What the parts of a command do

Each part of a command changes what it is about and leaves the rest of the session alone. A method
that is named stays, whatever later parts imply.
-/

namespace RequestForms.Command

namespace Item

def request? : Item → Option String
  | .setting .request method => some method
  | _ => none

def implied? : Item → Option String
  | .setting .data _ | .setting .dataUrlencode _ | .setting .json _ => some "POST"
  | .switch .head => some "HEAD"
  | _ => none

def url? : Item → Option String
  | .word text => if Session.looksLikeUrl text then some text else none
  | .setting .url value => some value
  | _ => none

def user? : Item → Option String
  | .setting .user text => some text
  | _ => none

def whole? : Item → Option String
  | .setting .data text | .setting .json text => some text
  | _ => none

def field? : Item → Option String
  | .setting .dataUrlencode field => some field
  | _ => none

end Item

def extended (body : Option String) (field : String) : String :=
  match body with
  | none | some "" => field
  | some text => text ++ "&" ++ field

theorem extended_some {text : String} (h : text ≠ "") (field : String) :
    extended (some text) field = text ++ "&" ++ field := by
  unfold extended
  split
  · next hnone => cases hnone
  · next hempty => exact absurd (Option.some.inj hempty) h
  · next htext => rw [Option.some.inj htext]

namespace Session

def methodAfter (session : Session) (item : Item) : String :=
  match item.request?, item.implied? with
  | some method, _ => Text.toUpper method
  | none, some method => if session.methodIsExplicit then session.method else method
  | none, none => session.method

theorem implyMethod_eq (method : String) (session : Session) :
    session.implyMethod method =
      { session with method := if session.methodIsExplicit then session.method else method } := by
  unfold implyMethod
  split <;> rfl

theorem supplyHeader_eq (name value : String) (session : Session) :
    session.supplyHeader name value =
      { session with
        headers := (session.supplyHeader name value).headers
        contentType := (session.supplyHeader name value).contentType } := by
  unfold supplyHeader
  split <;> rfl

theorem appendField_eq (field : String) (session : Session) :
    session.appendField field =
      { session.setBody (extended session.body field) with
        headers := (session.appendField field).headers
        contentType := (session.appendField field).contentType } := by
  unfold appendField
  dsimp only
  split <;> rfl

/-- All that a part of a command does, but for the headers. -/
theorem apply_eq (session : Session) (item : Item) :
    session.apply item =
      { method := session.methodAfter item
        methodIsExplicit := item.request?.isSome || session.methodIsExplicit
        url := item.url?.getD session.url
        headers := (session.apply item).headers
        body := (item.whole?.or (item.field?.map (extended session.body))).or session.body
        contentType := (session.apply item).contentType
        credentials := (item.user?.map credentialsOf).or session.credentials
        followRedirects := item = .switch .location || session.followRedirects
        insecure := item = .switch .insecure || session.insecure } := by
  cases item with
  | switch flag =>
      cases flag with
      | head => simp only [apply, applySwitch, implyMethod_eq]; rfl
      | compressed => simp only [apply, applySwitch]; split <;> rfl
      | location => rfl
      | insecure => rfl
  | setting flag value =>
      cases flag with
      | header => simp only [apply, applySetting]; split <;> rfl
      | data => simp only [apply, applySetting, setBody, implyMethod_eq]; rfl
      | dataUrlencode =>
          simp only [apply, applySetting]
          rw [appendField_eq, setBody, implyMethod_eq]
          rfl
      | json =>
          simp only [apply, applySetting]
          rw [supplyHeader_eq, supplyHeader_eq, setBody, implyMethod_eq]
          rfl
      | request => rfl
      | user => rfl
      | userAgent => rfl
      | cookie => rfl
      | referer => rfl
      | url => rfl
  | word text => simp only [apply, Item.url?]; split <;> rfl

section Fields

variable (session : Session) (item : Item)

theorem method_apply : (session.apply item).method = session.methodAfter item :=
  congrArg method (apply_eq session item)

theorem methodIsExplicit_apply :
    (session.apply item).methodIsExplicit =
      (item.request?.isSome || session.methodIsExplicit) :=
  congrArg methodIsExplicit (apply_eq session item)

theorem url_apply : (session.apply item).url = item.url?.getD session.url :=
  congrArg url (apply_eq session item)

theorem body_apply :
    (session.apply item).body =
      (item.whole?.or (item.field?.map (extended session.body))).or session.body :=
  congrArg body (apply_eq session item)

theorem credentials_apply :
    (session.apply item).credentials =
      (item.user?.map credentialsOf).or session.credentials :=
  congrArg credentials (apply_eq session item)

theorem followRedirects_apply :
    (session.apply item).followRedirects =
      (item = .switch .location || session.followRedirects : Bool) :=
  congrArg followRedirects (apply_eq session item)

theorem insecure_apply :
    (session.apply item).insecure = (item = .switch .insecure || session.insecure : Bool) :=
  congrArg insecure (apply_eq session item)

end Fields

end Session

end RequestForms.Command
