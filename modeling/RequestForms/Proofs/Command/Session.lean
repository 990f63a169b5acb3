import RequestForms.Command.Session
import RequestForms.Proofs.Command.Arguments
import RequestForms.Proofs.Command.LastWins
import RequestForms.Proofs.Headers

/-!
# The session of a written command

What the arguments of a request say one after another, and what becomes of the method: a method
that is named stays, and one that is not named becomes `POST` with a body.
-/

namespace RequestForms.Command

theorem ofWord?_eq_none {word : String} (h : word.toList.head? ≠ some '-') :
    Flag.ofWord? word = none := by
  unfold Flag.ofWord?
  split <;> first | rfl | exact absurd rfl h

def fieldItems (request : Request) : List Item :=
  (if request.url = "" then [] else [.word request.url]) ++
    (request.headers.entries.map fun header =>
      .setting .header (header.1 ++ ": " ++ header.2)) ++
    (request.credentials.toList.map fun credentials => .setting .user credentials.joined) ++
    (request.content.toList.map fun body => .setting .data body) ++
    (if request.insecure then [.switch .insecure] else [])

def itemsOf (request : Request) : List Item :=
  (if request.method.name = "GET" then [] else [.setting .request request.method.name]) ++
    fieldItems request

theorem items_cons_setting {word : String} {flag : Setting}
    (h : Flag.ofWord? word = some (.setting flag)) (value : String) (rest : List String) :
    items (word :: value :: rest) = .setting flag value :: items rest := by
  rw [items, h]

theorem items_flatMap_append {α : Type} {word : String} (flag : Setting)
    (h : Flag.ofWord? word = some (.setting flag)) (value : α → String) (xs : List α)
    (rest : List String) :
    items (xs.flatMap (fun x => [word, value x]) ++ rest) =
      xs.map (fun x => .setting flag (value x)) ++ items rest := by
  induction xs with
  | nil => rfl
  | cons x xs ih =>
      rw [List.flatMap_cons, List.append_assoc]
      change items (word :: value x :: (xs.flatMap (fun x => [word, value x]) ++ rest)) = _
      rw [items_cons_setting h, ih]
      rfl

theorem items_insecure (insecure : Bool) :
    items (if insecure then ["-k"] else []) = if insecure then [.switch .insecure] else [] := by
  cases insecure <;> rfl

theorem items_argumentsOf {request : Request} (hurl : request.url.toList.head? ≠ some '-') :
    items (argumentsOf request) = itemsOf request := by
  have hfields : items (fieldArguments request) = fieldItems request := by
    have hword : ∀ rest, items ((if request.url = "" then [] else [request.url]) ++ rest) =
        (if request.url = "" then [] else [.word request.url]) ++ items rest := by
      intro rest
      split
      · rfl
      · rw [List.singleton_append, items, ofWord?_eq_none hurl]
        rfl
    simp only [fieldArguments, fieldItems, List.append_assoc]
    rw [hword, items_flatMap_append .header rfl, items_flatMap_append .user rfl,
      items_flatMap_append .data rfl, items_insecure]
  rw [argumentsOf, itemsOf]
  split
  · exact hfields
  · change items ("-X" :: request.method.name :: fieldArguments request) = _
    rw [items_cons_setting rfl, hfields]
    rfl

/-- Away from active characters in the method, reading a command is applying the parts that it was
written from. -/
theorem read_render_eq {request : Request} (h : IsUnbroken request)
    (hmethod : ∀ c ∈ request.method.name.toList, Shell.isActive c = false)
    (hurl : request.url.toList.head? ≠ some '-') :
    read (render request) = ((itemsOf request).foldl Session.apply {}).request := by
  rw [read, arguments_render h hmethod, ofArguments, run, items_argumentsOf hurl]

theorem head?_ne_of_looksLikeUrl {url : String} (h : Session.looksLikeUrl url = true) :
    url.toList.head? ≠ some '-' := by
  simp only [Session.looksLikeUrl, Bool.or_eq_true, List.isPrefixOf_iff_prefix] at h
  rcases h with ⟨rest, hrest⟩ | ⟨rest, hrest⟩ <;> rw [← hrest] <;> simp

/-! ## The method -/

theorem filterMap_request?_itemsOf (request : Request) :
    (itemsOf request).filterMap Item.request? =
      if request.method.name = "GET" then [] else [request.method.name] := by
  have hfields : ∀ item ∈ fieldItems request, item.request? = none := by
    intro item hitem
    simp only [fieldItems, List.mem_append, List.mem_map, List.mem_ite_nil_left,
      List.mem_ite_nil_right, List.mem_singleton] at hitem
    rcases hitem with (((⟨-, rfl⟩ | ⟨header, -, rfl⟩) | ⟨credentials, -, rfl⟩) | ⟨body, -, rfl⟩) |
      ⟨-, rfl⟩ <;> rfl
  rw [itemsOf, List.filterMap_append, List.filterMap_eq_nil_iff.2 hfields, List.append_nil]
  split <;> rfl

theorem filterMap_implied?_itemsOf (request : Request) :
    (itemsOf request).filterMap Item.implied? = request.content.toList.map fun _ => "POST" := by
  have hurl : (if request.url = "" then [] else [Item.word request.url]).filterMap Item.implied? =
      [] := by
    split <;> rfl
  have hmethod : (if request.method.name = "GET" then []
      else [Item.setting .request request.method.name]).filterMap Item.implied? = [] := by
    split <;> rfl
  have hinsecure : (if request.insecure then [Item.switch .insecure] else []).filterMap
      Item.implied? = [] := by
    split <;> rfl
  simp only [itemsOf, fieldItems, List.filterMap_append, hmethod, hurl, hinsecure,
    List.filterMap_map, List.nil_append, List.append_nil]
  simp [Function.comp_def, Item.implied?]

/-- The method of the session that a written command ends in. -/
theorem method_foldl_itemsOf (request : Request) :
    ((itemsOf request).foldl Session.apply {}).method =
      if request.method.name = "GET" then
        if request.content = none then "GET" else "POST"
      else Text.toUpper request.method.name := by
  rw [Session.method_foldl_apply, methodOf, filterMap_request?_itemsOf,
    filterMap_implied?_itemsOf]
  by_cases hget : request.method.name = "GET"
  · rw [if_pos hget, if_pos hget]
    cases request.content <;> rfl
  · rw [if_neg hget, if_neg hget]
    rfl

/-- The method comes back unless it is the one left out and there is a body, which implies
`POST`. -/
theorem method_read_render_eq_iff {request : Request} (h : IsUnbroken request)
    (hurl : Session.looksLikeUrl request.url = true)
    (hmethod : ∀ c ∈ request.method.name.toList, Shell.isActive c = false)
    (hupper : Text.toUpper request.method.name = request.method.name) :
    (read (render request)).method = request.method ↔
      request.method.name ≠ "GET" ∨ request.content = none := by
  have hname : normalMethodName request.method.name = request.method.name := by
    rw [normalMethodName, request.method.trim_name, hupper, if_neg request.method.name_ne_empty]
  have hread : (read (render request)).method =
      Method.ofString (if request.method.name = "GET" then
        if request.content = none then "GET" else "POST" else request.method.name) := by
    rw [read_render_eq h hmethod (head?_ne_of_looksLikeUrl hurl), Session.request,
      method_foldl_itemsOf, hupper]
  rw [hread, Method.eq_iff_name_eq, Method.name_ofString]
  by_cases hget : request.method.name = "GET"
  · have hget' : normalMethodName "GET" = "GET" := hget ▸ hname
    have hpost : normalMethodName "POST" = "POST" := by decide
    by_cases hbody : request.content = none
    · simpa [hget, hbody] using hget'
    · simp [hget, hbody, hpost]
  · simp [hget, hname]

/-- A body leaves any other method alone. -/
theorem method_read_render_put :
    let request : Request := {
      method := .ofString "PUT"
      url := "http://it's"
      headers := .ofPairs [("-X", "GET")]
      body := some "-d" }
    IsUnbroken request ∧ Session.looksLikeUrl request.url = true ∧
      (∀ c ∈ request.method.name.toList, Shell.isActive c = false) ∧
      Text.toUpper request.method.name = request.method.name ∧
      (read (render request)).method = request.method := by
  intro request
  have hunbroken : IsUnbroken request := by decide +kernel
  have hurl : Session.looksLikeUrl request.url = true := by decide
  have hmethod : ∀ c ∈ request.method.name.toList, Shell.isActive c = false := by
    decide +kernel
  have hupper : Text.toUpper request.method.name = request.method.name := by decide +kernel
  exact ⟨hunbroken, hurl, hmethod, hupper,
    (method_read_render_eq_iff hunbroken hurl hmethod hupper).2 (Or.inl (by decide +kernel))⟩

/-- A body turns the method that is left out into `POST`. -/
theorem method_read_render_ne_of_get_with_body :
    let request : Request := { url := "/x", body := some "x" }
    IsUnbroken request ∧ Session.looksLikeUrl request.url = true ∧
      (∀ c ∈ request.method.name.toList, Shell.isActive c = false) ∧
      Text.toUpper request.method.name = request.method.name ∧
      (read (render request)).method.name = "POST" ∧
      (read (render request)).method ≠ request.method := by
  decide +kernel

end RequestForms.Command
