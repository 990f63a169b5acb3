import RequestForms.Proofs.Collection.Folders
import RequestForms.Proofs.Collection.Request

/-!
# Changing the request of one leaf

A collection in which the request of one leaf was changed has the same leaves but for that one, at
its place. So it is read as before if the leaf gives the same request, and only then.
-/

namespace RequestForms.Collection

/-- Changes the request of the item that a path leads to. -/
def changeAt (change : Json → Json) : List Nat → Json → Json
  | [], item => item.modify "request" change
  | n :: path, item =>
      item.modify "item" (Json.onElements fun items => items.modify n (changeAt change path))

variable {change : Json → Json} {item collection : Json} {path : List Nat}
  {fields fields' : List (String × Json)}

theorem itemLeaves_modify_request (hchange : change (.object fields) = .object fields')
    (hleaf : LeafAt item [] (.fields fields)) :
    itemLeaves item = [.fields fields] ∧
      itemLeaves (item.modify "request" change) = [.fields fields'] := by
  cases hleaf with
  | here hfolder hleaf =>
      cases hleaf with
      | fields hrequest =>
          have hfolder' : ∀ items, ¬IsFolder (item.modify "request" change) items := by
            intro items h
            rw [IsFolder, Json.member?_modify, if_neg (by decide)] at h
            exact hfolder items h
          have hrequest' : Holds (item.modify "request" change) (.fields fields') := by
            refine .fields ?_
            rw [Json.member?_modify, if_pos rfl, hrequest, Option.map_some, hchange]
          rw [itemLeaves_eq_of_children?_eq_none (children?_eq_none_iff.2 hfolder),
            itemLeaves_eq_of_children?_eq_none (children?_eq_none_iff.2 hfolder'),
            leafOf?_eq_some_iff.2 (.fields hrequest), leafOf?_eq_some_iff.2 hrequest']
          exact ⟨rfl, rfl⟩

theorem isFolder_changeAt {items : List Json} (h : IsFolder item items) (n : Nat) :
    IsFolder (changeAt change (n :: path) item) (items.modify n (changeAt change path)) := by
  rw [IsFolder, changeAt, Json.member?_modify, if_pos rfl, h]
  rfl

/-- Only the leaf at the path changes. -/
theorem exists_itemLeaves_changeAt (hchange : change (.object fields) = .object fields')
    (hleaf : LeafAt item path (.fields fields)) :
    ∃ front back, itemLeaves item = front ++ .fields fields :: back ∧
      itemLeaves (changeAt change path item) = front ++ .fields fields' :: back := by
  induction path generalizing item with
  | nil =>
      obtain ⟨hbefore, hafter⟩ := itemLeaves_modify_request hchange hleaf
      exact ⟨[], [], hbefore, hafter⟩
  | cons n path ih =>
      cases hleaf with
      | @inside _ inner items _ _ _ hfolder hinner hleaf =>
          obtain ⟨front, back, hbefore, hafter⟩ := ih hleaf
          obtain ⟨hn, hinner⟩ := List.getElem?_eq_some_iff.1 hinner
          have hfolder' : IsFolder (changeAt change (n :: path) item) _ :=
            isFolder_changeAt hfolder n
          have hsplit : items = items.take n ++ inner :: items.drop (n + 1) := by
            rw [← hinner, ← List.drop_eq_getElem_cons hn, List.take_append_drop]
          refine ⟨(items.take n).flatMap itemLeaves ++ front,
            back ++ (items.drop (n + 1)).flatMap itemLeaves, ?_, ?_⟩
          · calc itemLeaves item
                = items.flatMap itemLeaves := itemLeaves_eq_of_isFolder hfolder
              _ = (items.take n ++ inner :: items.drop (n + 1)).flatMap itemLeaves := by
                  rw [← hsplit]
              _ = _ := by rw [List.flatMap_append, List.flatMap_cons, hbefore]; simp
          · rw [itemLeaves_eq_of_isFolder hfolder', List.modify_eq_take_cons_drop hn, hinner,
              List.flatMap_append, List.flatMap_cons, hafter]
            simp

theorem leaves_eq_itemLeaves {items : List Json}
    (h : IsFolder collection items) : leaves collection = itemLeaves collection :=
  (leaves_eq_of_isFolder h).trans (itemLeaves_eq_of_isFolder h).symm

theorem exists_leaves_changeAt (hchange : change (.object fields) = .object fields')
    (hpath : path ≠ []) (hleaf : LeafAt collection path (.fields fields)) :
    ∃ front back, leaves collection = front ++ .fields fields :: back ∧
      leaves (changeAt change path collection) = front ++ .fields fields' :: back := by
  have hitems := exists_itemLeaves_changeAt hchange hleaf
  cases hleaf with
  | here => exact absurd rfl hpath
  | inside hfolder =>
      rw [leaves_eq_itemLeaves hfolder, leaves_eq_itemLeaves (isFolder_changeAt hfolder _)]
      exact hitems

/-! ## One step among others -/

section Steps

variable {α β ε : Type} {f : α → Except ε β} {x x' : α}

theorem mapM_append_cons_eq (h : f x' = f x) (front back : List α) :
    (front ++ x' :: back).mapM f = (front ++ x :: back).mapM f := by
  rw [List.mapM_append, List.mapM_append, List.mapM_cons, List.mapM_cons, h]

theorem mapM_append_cons_eq_error_iff (h : ∀ fault, f x' = .error fault ↔ f x = .error fault)
    (front back : List α) (fault : ε) :
    (front ++ x' :: back).mapM f = .error fault ↔ (front ++ x :: back).mapM f = .error fault := by
  rw [List.mapM_append, List.mapM_append, List.mapM_cons, List.mapM_cons]
  cases hx : f x with
  | error found => rw [(h found).2 hx]
  | ok y =>
      obtain ⟨y', hx'⟩ : ∃ y', f x' = .ok y' := by
        cases hx' : f x' with
        | error found => exact absurd ((h found).1 hx') (by simp [hx])
        | ok y' => exact ⟨y', rfl⟩
      rw [hx']
      cases front.mapM f <;> cases back.mapM f <;> simp [bind, Except.bind, pure, Except.pure]

theorem exists_of_mapM_append_cons_eq_ok (x' : α) {front back : List α} {ys : List β}
    (h : (front ++ x :: back).mapM f = .ok ys) :
    ∃ y, f x = .ok y ∧ ((front ++ x' :: back).mapM f = .ok ys ↔ f x' = .ok y) := by
  rw [List.mapM_append, List.mapM_cons] at h
  rw [List.mapM_append, List.mapM_cons]
  cases hfront : front.mapM f with
  | error fault => rw [hfront] at h; cases h
  | ok before =>
      cases hx : f x with
      | error fault => rw [hfront, hx] at h; cases h
      | ok y =>
          cases hback : back.mapM f with
          | error fault => rw [hfront, hx, hback] at h; cases h
          | ok behind =>
              rw [hfront, hx, hback] at h
              obtain rfl : before ++ y :: behind = ys := Except.ok.inj h
              refine ⟨y, rfl, ?_⟩
              cases f x' <;> simp [bind, Except.bind, pure, Except.pure]

end Steps

/-! ## Reading -/

section Reading

variable {text text' : String} (hchange : change (.object fields) = .object fields')
  (htext : Json.read text = .ok collection) (hpath : path ≠ [])
  (hleaf : LeafAt collection path (.fields fields))
  (htext' : Json.read text' = .ok (changeAt change path collection))

include hchange htext hpath hleaf htext'

/-- If the leaf gives the same request, or fails alike, then so does the collection. -/
theorem read_changeAt_eq (h : (Leaf.fields fields').request = (Leaf.fields fields).request) :
    InputFormat.read text' .postman = InputFormat.read text .postman := by
  obtain ⟨front, back, hbefore, hafter⟩ := exists_leaves_changeAt hchange hpath hleaf
  rw [read_postman_eq htext, read_postman_eq htext', hbefore, hafter, mapM_append_cons_eq h]

/-- If the leaf fails for the same reason or not at all, then so does the collection, and if it is
read then it is read as the same requests exactly if the leaf gives the same request. -/
theorem read_changeAt_eq_iff
    (h : ∀ fault, (Leaf.fields fields').request = .error fault ↔
      (Leaf.fields fields).request = .error fault) :
    (∀ error, InputFormat.read text' .postman = .error error ↔
      InputFormat.read text .postman = .error error) ∧
    ∀ requests, InputFormat.read text .postman = .ok requests →
      ∃ request, (Leaf.fields fields).request = .ok request ∧
        (InputFormat.read text' .postman = .ok requests ↔
          (Leaf.fields fields').request = .ok request) := by
  obtain ⟨front, back, hbefore, hafter⟩ := exists_leaves_changeAt hchange hpath hleaf
  rw [read_postman_eq htext, read_postman_eq htext', hbefore, hafter]
  constructor
  · intro error
    have hfault := mapM_append_cons_eq_error_iff h front back
    cases hmap : (front ++ .fields fields :: back).mapM Leaf.request with
    | error fault => rw [(hfault fault).2 hmap]
    | ok found =>
        cases hmap' : (front ++ .fields fields' :: back).mapM Leaf.request with
        | error fault => exact absurd ((hfault fault).1 hmap') (by simp [hmap])
        | ok found' => simp [Except.mapError]
  · intro requests hrequests
    cases hmap : (front ++ .fields fields :: back).mapM Leaf.request with
    | error fault => rw [hmap] at hrequests; cases hrequests
    | ok found =>
        rw [hmap] at hrequests
        obtain rfl : found = requests := Except.ok.inj hrequests
        obtain ⟨request, hrequest, hiff⟩ :=
          exists_of_mapM_append_cons_eq_ok (Leaf.fields fields') hmap
        refine ⟨request, hrequest, ?_⟩
        rw [← hiff]
        cases (front ++ .fields fields' :: back).mapM Leaf.request <;> simp [Except.mapError]

end Reading

/-- If the leaf differs in texts only, then the collection fails for the same reason or not at all,
and if it is read then it is read as the same requests exactly if these texts are the same. -/
theorem read_changeAt_of_differInTexts {text text' : String}
    (hchange : ∃ fields', change (.object fields) = .object fields')
    (htext : Json.read text = .ok collection) (hpath : path ≠ [])
    (hleaf : LeafAt collection path (.fields fields))
    (htext' : Json.read text' = .ok (changeAt change path collection))
    (h : DifferInTexts (.object fields) (change (.object fields))) :
    (∀ error, InputFormat.read text' .postman = .error error ↔
      InputFormat.read text .postman = .error error) ∧
    ∀ requests, InputFormat.read text .postman = .ok requests →
      (InputFormat.read text' .postman = .ok requests ↔
        urlOf ((change (.object fields)).member "url") =
          urlOf ((Json.object fields).member "url") ∧
        headersOf ((change (.object fields)).member "header") =
          headersOf ((Json.object fields).member "header") ∧
        bodyOf ((change (.object fields)).member "body") =
          bodyOf ((Json.object fields).member "body")) := by
  obtain ⟨fields', hfields'⟩ := hchange
  rw [hfields'] at h ⊢
  obtain ⟨herror, hok⟩ := read_changeAt_eq_iff hfields' htext hpath hleaf htext'
    h.request_eq_error_iff
  refine ⟨herror, fun requests hrequests => ?_⟩
  obtain ⟨request, hrequest, hiff⟩ := hok requests hrequests
  rw [hiff, h.request_eq_iff hrequest]

/-! ## A single request -/

def single (fields : List (String × Json)) : Json :=
  folderOf [.object [("request", .object fields)]]

theorem leafAt_single (fields : List (String × Json)) :
    LeafAt (single fields) [0] (.fields fields) := by
  refine .inside rfl rfl (.here ?_ (.fields rfl))
  rintro items ⟨⟩

theorem changeAt_single (hchange : change (.object fields) = .object fields') :
    changeAt change [0] (single fields) = single fields' := by
  rw [single, single, ← hchange]
  rfl

theorem read_single {text : String} (htext : Json.read text = .ok (single fields)) :
    InputFormat.read text .postman =
      ((Leaf.fields fields).request.map fun request => [request]).mapError .notRequest := by
  have hleaves : leaves (single fields) = [.fields fields] := by
    have hfolder : IsFolder (single fields) [.object [("request", .object fields)]] := rfl
    rw [leaves_eq_of_isFolder hfolder, List.flatMap_singleton,
      itemLeaves_eq_of_children?_eq_none rfl]
    rfl
  rw [read_postman_eq htext, hleaves, List.mapM_cons, List.mapM_nil]
  cases (Leaf.fields fields).request <;> rfl

end RequestForms.Collection
