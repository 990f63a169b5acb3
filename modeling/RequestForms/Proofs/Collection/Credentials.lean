import RequestForms.Proofs.Collection.Revision
import RequestForms.Proofs.Json.Equality

/-!
# Shapes of credentials

Credentials are a list of named values, in any order and with other elements between them, or an
object. Only what the names stand for matters.
-/

namespace RequestForms.Collection

/-- Elements of which the objects name these values, in this order. -/
def Names (elements : List Json) (values : List (String × Json)) : Prop :=
  List.Forall₂ (fun entry value => entry.member? "key" = some (.string value.1) ∧
    entry.member "value" = value.2) (objects elements) values

inductive HasShape (values : List (String × Json)) : Json → Prop
  | list {elements : List Json} {named : List (String × Json)} (hnamed : Names elements named)
      (hperm : named.Perm values) : HasShape values (.array elements)
  | mapping {members : List (String × Json)} (hperm : members.Perm values) :
      HasShape values (.object members)

def withBasic (basic : Json) (source : Json) : Json :=
  source.modify "auth" fun auth => auth.modify "basic" fun _ => basic

variable {values : List (String × Json)} {auth basic : Json}

theorem namedValues_eq_ok {entries : List Json}
    (h : List.Forall₂ (fun entry value => entry.member? "key" = some (.string value.1) ∧
      entry.member "value" = value.2) entries values) : namedValues entries = .ok values := by
  induction h with
  | nil => rfl
  | cons hentry _ ih =>
      rw [namedValues, Json.member_of_member? hentry.1, ih, hentry.2]
      rfl

/-- The order of the values does not matter. -/
theorem credentialsIn_eq_of_perm {values' : List (String × Json)}
    (hnodup : (values.map Prod.fst).Nodup) (h : values.Perm values') :
    credentialsIn (.object values') = credentialsIn (.object values) := by
  have hmember : ∀ name, (Json.object values').member name = (Json.object values).member name := by
    intro name
    rw [Json.member, Json.member?, ← Assoc.lookup_eq_of_perm hnodup h name]
    rfl
  rw [credentialsIn, hmember, hmember, credentialsIn]

/-- In whatever shape they are given, the values make up the same credentials. -/
theorem credentialsOf_eq_of_hasShape (hnodup : (values.map Prod.fst).Nodup)
    (hshape : HasShape values basic) (htype : auth.member "type" = .string "basic")
    (hbasic : auth.member "basic" = basic) :
    credentialsOf auth = .ok (credentialsIn (.object values)) := by
  cases hshape with
  | list hnamed hperm =>
      have hdistinct := (hperm.map Prod.fst).nodup_iff.2 hnodup
      rw [credentialsOf_array htype hbasic, namedValues_eq_ok hnamed, Except.map,
        Assoc.ofPairs_of_nodup hdistinct, credentialsIn_eq_of_perm hnodup hperm.symm]
  | mapping hperm =>
      rw [credentialsOf_object htype hbasic, credentialsIn_eq_of_perm hnodup hperm.symm]

/-- There are none exactly if the user name is missing or null. -/
theorem credentialsIn_eq_none_iff :
    credentialsIn (.object values) = none ↔
      values.lookup "username" = none ∨ values.lookup "username" = some .null := by
  rw [credentialsIn, Json.member, Json.member?]
  cases values.lookup "username" with
  | none => simp
  | some user => cases user <;> simp

theorem request_eq_of_credentialsOf_eq {members members' : List (String × Json)}
    (h : ∀ name, name ≠ "auth" →
      (Json.object members').member name = (Json.object members).member name)
    (hcredentials : credentialsOf ((Json.object members').member "auth") =
      credentialsOf ((Json.object members).member "auth")) :
    (Leaf.fields members').request = (Leaf.fields members).request := by
  rw [request_fields, request_fields, hcredentials, h "url" (by decide)]
  simp only [checkedRequest, h "method" (by decide), h "header" (by decide), h "body" (by decide)]

theorem credentialsOf_withBasic {source basic' : Json} (hauth : source.member "auth" = auth)
    (htype : auth.member "type" = .string "basic") (hbasic : auth.member? "basic" = some basic)
    (hnodup : (values.map Prod.fst).Nodup) (hshape' : HasShape values basic') :
    credentialsOf ((withBasic basic' source).member "auth") =
      .ok (credentialsIn (.object values)) := by
  rw [withBasic, Json.member_modify_self rfl, hauth]
  refine credentialsOf_eq_of_hasShape hnodup hshape' ?_ (Json.member_of_member? ?_)
  · rw [Json.member_modify_of_ne (by decide), htype]
  · rw [Json.member?_modify, if_pos rfl, hbasic, Option.map_some]

/-- Values with distinct names give a request the same credentials whether they are a list, the list
in another order and with elements that are no objects in it, or an object: nothing else of the
collection changes. There are none exactly if the user name is missing or null. -/
theorem read_withBasic_eq {text text' : String} {collection basic' : Json} {path : List Nat}
    {fields : List (String × Json)} (htext : Json.read text = .ok collection) (hpath : path ≠ [])
    (hleaf : LeafAt collection path (.fields fields))
    (hauth : (Json.object fields).member "auth" = auth)
    (htype : auth.member "type" = .string "basic") (hbasic : auth.member? "basic" = some basic)
    (hnodup : (values.map Prod.fst).Nodup) (hshape : HasShape values basic)
    (hshape' : HasShape values basic')
    (htext' : Json.read text' = .ok (changeAt (withBasic basic') path collection)) :
    InputFormat.read text' .postman = InputFormat.read text .postman ∧
      ∀ requests, InputFormat.read text .postman = .ok requests →
        ∃ request ∈ requests, (Leaf.fields fields).request = .ok request ∧
          request.credentials = credentialsIn (.object values) ∧
          (request.credentials = none ↔
            values.lookup "username" = none ∨ values.lookup "username" = some .null) := by
  have hcredentials : credentialsOf ((Json.object fields).member "auth") =
      .ok (credentialsIn (.object values)) := by
    rw [hauth]
    exact credentialsOf_eq_of_hasShape hnodup hshape htype (Json.member_of_member? hbasic)
  constructor
  · have hcredentials' := credentialsOf_withBasic hauth htype hbasic hnodup hshape'
    refine read_changeAt_eq rfl htext hpath hleaf htext' (request_eq_of_credentialsOf_eq ?_ ?_)
    · exact fun name hname => Json.member_modify_of_ne hname _ (.object fields)
    · exact hcredentials'.trans hcredentials.symm
  · intro found hfound
    obtain ⟨request, hmem, hrequest⟩ :=
      exists_request_of_mem (requests_eq_of_read htext hfound) (mem_leaves_of_leafAt hpath hleaf)
    have hgiven : request.credentials = credentialsIn (.object values) :=
      Except.ok.inj ((request_eq_ok_iff.1 hrequest).credentials.symm.trans hcredentials)
    exact ⟨request, hmem, hrequest, hgiven, hgiven ▸ credentialsIn_eq_none_iff⟩

/-- A list with a number in it, and an object in another order. -/
theorem read_withBasic_of_list_and_mapping :
    let text := "\x7b\"item\":[\x7b\"request\":\x7b\"auth\":\x7b\"type\":\"basic\",\"basic\":[" ++
      "0,\x7b\"key\":\"a\"\x7d,\x7b\"key\":\"username\",\"value\":1\x7d]\x7d\x7d\x7d]\x7d"
    let text' := "\x7b\"item\":[\x7b\"request\":\x7b\"auth\":\x7b\"type\":\"basic\",\"basic\":" ++
      "\x7b\"username\":1,\"a\":null\x7d\x7d\x7d\x7d]\x7d"
    let elements := [Json.int 0, .object [("key", .string "a")],
      .object [("key", .string "username"), ("value", .int 1)]]
    let values := [("username", Json.int 1), ("a", .null)]
    let fields := [("auth", Json.object [("type", .string "basic"), ("basic", .array elements)])]
    Json.read text = .ok (single fields) ∧ HasShape values (.array elements) ∧
      HasShape values (.object values) ∧
      Json.read text' = .ok (changeAt (withBasic (.object values)) [0] (single fields)) ∧
      InputFormat.read text' .postman = InputFormat.read text .postman := by
  intro text text' elements values fields
  have htext : Json.read text = .ok (single fields) := by decide +kernel
  have htext' : Json.read text' =
      .ok (changeAt (withBasic (.object values)) [0] (single fields)) := by
    rw [changeAt_single rfl]
    decide +kernel
  have hnamed : Names elements [("a", .null), ("username", .int 1)] :=
    .cons ⟨rfl, rfl⟩ (.cons ⟨rfl, rfl⟩ .nil)
  have hlist : HasShape values (.array elements) := .list hnamed (.swap _ _ _)
  have hmapping : HasShape values (.object values) := .mapping (.refl _)
  exact ⟨htext, hlist, hmapping, htext', (read_withBasic_eq htext (by simp) (leafAt_single fields)
    rfl rfl rfl (by decide) hlist hmapping htext').1⟩

end RequestForms.Collection
