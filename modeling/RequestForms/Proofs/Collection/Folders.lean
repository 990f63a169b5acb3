import Mathlib
import RequestForms.Format
import RequestForms.Proofs.Collection.Leaves

/-!
# Folders only group

Moving a run of items into a folder of its own changes nothing, at any depth, and no more does an
element that counts for nothing. What a collection is read as, or why it is not read, depends on its
leaves in the order of the document alone.
-/

namespace RequestForms.Collection

/-- Items of which a run was moved into a folder, or among which idle elements were put, in the list
itself or in a folder below it. -/
inductive Regrouped : List Json → List Json → Prop
  | grouped (before run behind : List Json) {folder : Json} (hfolder : IsFolder folder run) :
      Regrouped (before ++ run ++ behind) (before ++ folder :: behind)
  | inserted (before idle behind : List Json) (hidle : ∀ item ∈ idle, IsIdle item) :
      Regrouped (before ++ behind) (before ++ idle ++ behind)
  | inside (before behind : List Json) {members : List (String × Json)} {items items' : List Json}
      (hitems : IsFolder (.object members) items) (h : Regrouped items items') :
      Regrouped (before ++ .object members :: behind)
        (before ++ .object (Assoc.set "item" (.array items') members) :: behind)

inductive Rearranged : Json → Json → Prop
  | items {members : List (String × Json)} {items items' : List Json}
      (hitems : IsFolder (.object members) items) (h : Regrouped items items') :
      Rearranged (.object members) (.object (Assoc.set "item" (.array items') members))

theorem isFolder_set (members : List (String × Json)) (items : List Json) :
    IsFolder (.object (Assoc.set "item" (.array items) members)) items := by
  rw [IsFolder, Json.member?, Assoc.lookup_set, if_pos rfl]

/-- No step moves a leaf past another one. -/
theorem Regrouped.flatMap_itemLeaves_eq {items items' : List Json} (h : Regrouped items items') :
    items'.flatMap itemLeaves = items.flatMap itemLeaves := by
  induction h with
  | grouped before run behind hfolder =>
      rw [List.flatMap_append, List.flatMap_cons, itemLeaves_eq_of_isFolder hfolder,
        List.flatMap_append, List.flatMap_append, List.append_assoc]
  | inserted before idle behind hidle =>
      have hnone : idle.flatMap itemLeaves = [] := by
        rw [List.flatMap_eq_nil_iff]
        exact fun item hitem => itemLeaves_eq_nil_of_isIdle (hidle item hitem)
      rw [List.flatMap_append, List.flatMap_append, List.flatMap_append, hnone, List.append_nil]
  | inside before behind hitems _ ih =>
      rw [List.flatMap_append, List.flatMap_append, List.flatMap_cons, List.flatMap_cons,
        itemLeaves_eq_of_isFolder (isFolder_set _ _), ih, itemLeaves_eq_of_isFolder hitems]

theorem Rearranged.leaves_eq {collection collection' : Json}
    (h : Rearranged collection collection') : leaves collection' = leaves collection := by
  cases h with
  | items hitems h =>
      rw [leaves_eq_of_isFolder (isFolder_set _ _), h.flatMap_itemLeaves_eq,
        leaves_eq_of_isFolder hitems]

theorem leaves_eq_of_eqvGen {collection collection' : Json}
    (h : Relation.EqvGen Rearranged collection collection') :
    leaves collection' = leaves collection := by
  induction h with
  | rel collection collection' h => exact h.leaves_eq
  | refl collection => rfl
  | symm collection collection' _ ih => exact ih.symm
  | trans collection collection' collection'' _ _ ih ih' => exact ih'.trans ih

theorem read_postman_eq {text : String} {collection : Json} (h : Json.read text = .ok collection) :
    InputFormat.read text .postman =
      ((leaves collection).mapM Leaf.request).mapError .notRequest := by
  rw [InputFormat.read, h]
  rfl

theorem requests_eq_of_read {text : String} {collection : Json} {found : List Request}
    (htext : Json.read text = .ok collection) (h : InputFormat.read text .postman = .ok found) :
    requests collection = .ok found := by
  have hread : InputFormat.read text .postman = (requests collection).mapError .notRequest :=
    read_postman_eq htext
  rw [hread] at h
  cases hrequests : requests collection with
  | error fault => rw [hrequests] at h; cases h
  | ok more =>
      rw [hrequests] at h
      rw [Except.ok.inj h]

/-- However often a collection is rearranged, it is read as the same requests or fails for the same
reason: as the requests of its leaves in the order of the document, one for each of them, where the
first leaf that is no request fails. -/
theorem read_eq_of_rearranged {text text' : String} {collection collection' : Json}
    (htext : Json.read text = .ok collection) (htext' : Json.read text' = .ok collection')
    (h : Relation.EqvGen Rearranged collection collection') :
    InputFormat.read text' .postman = InputFormat.read text .postman ∧
      ∃ places : List (List Nat × Leaf),
        (places.Pairwise fun a b => a.1 < b.1) ∧
        (∀ path leaf, (path, leaf) ∈ places ↔ path ≠ [] ∧ LeafAt collection path leaf) ∧
        InputFormat.read text .postman =
          ((places.map Prod.snd).mapM Leaf.request).mapError .notRequest ∧
        ∀ requests, InputFormat.read text .postman = .ok requests →
          List.Forall₂ (fun place request => place.2.request = .ok request) places requests := by
  have hread := read_postman_eq htext
  refine ⟨by rw [hread, read_postman_eq htext', leaves_eq_of_eqvGen h], ?_⟩
  obtain ⟨places, hplaces, hleaves⟩ := exists_lists_leaves collection
  refine ⟨places, hplaces.ascending, hplaces.mem_iff, by rw [hread, hleaves], ?_⟩
  intro requests hrequests
  rw [hread, ← hleaves] at hrequests
  cases hmap : (places.map Prod.snd).mapM Leaf.request with
  | error fault => rw [hmap] at hrequests; cases hrequests
  | ok found =>
      rw [hmap] at hrequests
      obtain rfl : found = requests := Except.ok.inj hrequests
      exact List.forall₂_map_left_iff.1 (forall₂_of_mapM_eq_ok hmap)

def folderOf (items : List Json) : Json := .object [("item", .array items)]

def requestAt (url : String) : Json := .object [("request", .string url)]

set_option maxRecDepth 1000 in
/-- In a folder, a folder with a request of its own, and an idle element in front of it. -/
theorem read_of_request_in_folders :
    let text := "\x7b\"item\":[\x7b\"item\":[\x7b\"request\":\"a\"\x7d]\x7d]\x7d"
    let text' := "\x7b\"item\":[\x7b\"item\":[null,\x7b\"request\":\"b\"," ++
      "\"item\":[\x7b\"request\":\"a\"\x7d]\x7d]\x7d]\x7d"
    ∃ collection collection', Json.read text = .ok collection ∧ Json.read text' = .ok collection' ∧
      Relation.EqvGen Rearranged collection collection' ∧
      InputFormat.read text' .postman = InputFormat.read text .postman := by
  intro text text'
  obtain ⟨inner, hinner⟩ : ∃ inner : Json, inner =
      .object [("request", .string "b"), ("item", .array [requestAt "a"])] := ⟨_, rfl⟩
  have htext : Json.read text = .ok (folderOf [folderOf [requestAt "a"]]) := by
    unfold folderOf requestAt
    cbv
  have htext' : Json.read text' = .ok (folderOf [folderOf [.null, inner]]) := by
    rw [hinner]
    unfold folderOf requestAt
    cbv
  have hgrouped : Rearranged (folderOf [folderOf [requestAt "a"]]) (folderOf [folderOf [inner]]) :=
    .items rfl (.inside [] [] rfl (.grouped [] [requestAt "a"] [] (by rw [hinner]; rfl)))
  have hnull : Rearranged (folderOf [folderOf [inner]]) (folderOf [folderOf [.null, inner]]) := by
    refine .items rfl (.inside [] [] rfl (.inserted [] [.null] [inner] ?_))
    simpa using isIdle_of_not_object (by simp)
  have h : Relation.EqvGen Rearranged (folderOf [folderOf [requestAt "a"]])
      (folderOf [folderOf [.null, inner]]) :=
    .trans _ _ _ (.rel _ _ hgrouped) (.rel _ _ hnull)
  exact ⟨_, _, htext, htext', h, (read_eq_of_rearranged htext htext' h).1⟩

end RequestForms.Collection
