import RequestForms.Proofs.Json.Literal
import RequestForms.Proofs.Method
import RequestForms.Request.Document
import RequestForms.Request.Fields

/-!
# Requests back from their JSON

The JSON of a request reads as one object. A member that was left out has the default that it stood
for, so that the fields of this object are accepted and give the request again.
-/

namespace RequestForms

/-! ## Members as values -/

namespace Member

def value : Member → Json
  | text value => .string value
  | flag value => .bool value
  | group entries => .object (entries.map fun entry => (entry.1, .string entry.2))

def HasDistinctNames : Member → Prop
  | group entries => (entries.map Prod.fst).Nodup
  | _ => True

theorem writes_toJson (depth : Nat) {member : Member} (h : member.HasDistinctNames) :
    Json.Writes (depth + 1) member.toJson.toList member.value := by
  cases member with
  | text value => exact Json.writes_stringLiteral _ value
  | flag value => exact Json.writes_bool _ value
  | group entries =>
      apply Json.writes_block (by decide)
      · simp only [List.forall₂_map_left_iff, List.forall₂_map_right_iff, List.forall₂_same]
        exact fun entry _ => ⟨rfl, Json.writes_stringLiteral depth entry.2⟩
      · rw [List.map_map]
        exact h

theorem isWritten_of_mem_toJson (member : Member) :
    ∀ c ∈ member.toJson.toList, Json.IsWritten c := by
  cases member with
  | text value => exact Json.isWritten_of_mem_stringLiteral
  | flag value => cases value <;> decide
  | group entries =>
      apply Json.isWritten_of_mem_block (by decide)
      intro entry hentry
      obtain ⟨entry, -, rfl⟩ := List.mem_map.1 hentry
      exact Json.isWritten_of_mem_stringLiteral

end Member

/-! ## Values that are accepted -/

theorem Checked.texts_map_string (path : List String) (entries : List (String × String)) :
    Checked.texts path (entries.map fun entry => (entry.1, .string entry.2)) = .accepted entries := by
  induction entries with
  | nil => rfl
  | cons entry entries ih =>
      rw [List.map_cons, Checked.texts, ih]
      rfl

theorem Checked.headers_value_group (path : List String) (headers : Headers) :
    Checked.headers path (Member.group headers.entries).value = .accepted headers := by
  rw [Member.value, Checked.headers, Checked.texts_map_string]
  exact congrArg Checked.accepted headers.ofPairs_entries

theorem Checked.credentials_value_group (path : List String) (credentials : Credentials) :
    Checked.credentials path (Member.group (Request.credentialMembers credentials)).value =
      .accepted (some credentials) := by
  rfl

namespace Request

variable {request : Request}

/-! ## The members of a request -/

def memberNames : List String :=
  ["method", "url", "headers", "body", "contentType", "auth", "followRedirects", "insecure"]

theorem names_optionalMember_sublist (name : String) (value : Option Member) :
    ((optionalMember name value).map Prod.fst).Sublist [name] := by
  cases value with
  | none => exact List.nil_sublist _
  | some value => exact List.Sublist.refl _

theorem names_members_sublist (request : Request) :
    (request.members.map Prod.fst).Sublist memberNames := by
  simp only [members, List.map_append]
  exact ((((List.Sublist.refl _).append (names_optionalMember_sublist "body" _)).append
    (names_optionalMember_sublist "contentType" _)).append
      (names_optionalMember_sublist "auth" _)).append (List.Sublist.refl _)

theorem nodup_names_members (request : Request) : (request.members.map Prod.fst).Nodup :=
  (names_members_sublist request).nodup (by decide)

theorem hasDistinctNames_of_mem_optionalMember {β : Type} {name : String} {value : Option β}
    {toMember : β → Member} {member : String × Member}
    (h : member ∈ optionalMember name (value.map toMember))
    (hvalue : ∀ found, (toMember found).HasDistinctNames) : member.2.HasDistinctNames := by
  cases value with
  | none => cases h
  | some value =>
      obtain rfl := List.mem_singleton.1 h
      exact hvalue value

theorem hasDistinctNames_of_mem_members {member : String × Member}
    (h : member ∈ request.members) : member.2.HasDistinctNames := by
  have hcredentials : ["user", "pass"].Nodup := by decide
  simp only [members, List.mem_append, List.mem_cons, List.not_mem_nil, or_false] at h
  rcases h with ((((rfl | rfl | rfl) | hbody) | htype) | hauth) | rfl | rfl
  · trivial
  · trivial
  · exact request.headers.nodup_names
  · exact hasDistinctNames_of_mem_optionalMember hbody fun _ => trivial
  · exact hasDistinctNames_of_mem_optionalMember htype fun _ => trivial
  · exact hasDistinctNames_of_mem_optionalMember hauth fun _ => hcredentials
  · trivial
  · trivial

def fields (request : Request) : List (String × Json) :=
  request.members.map fun member => (member.1, member.2.value)

theorem read_toJson (request : Request) :
    Json.read request.toJson = .ok (.object request.fields) := by
  have hwrites : Json.Writes Json.maxDepth request.toJson.toList (.object request.fields) := by
    apply Json.writes_block (by decide)
    · rw [fields, List.forall₂_map_left_iff, List.forall₂_map_right_iff, List.forall₂_same]
      intro member hmem
      exact ⟨rfl, member.2.writes_toJson 998 (hasDistinctNames_of_mem_members hmem)⟩
    · rw [fields, List.map_map]
      exact request.nodup_names_members
  apply Json.read_of_writes _ hwrites
  rw [toJson, Json.head?_block]
  decide

theorem isWritten_of_mem_toJson (request : Request) :
    ∀ c ∈ request.toJson.toList, Json.IsWritten c := by
  apply Json.isWritten_of_mem_block (by decide)
  intro entry hentry
  obtain ⟨member, -, rfl⟩ := List.mem_map.1 hentry
  exact member.2.isWritten_of_mem_toJson

/-! ## From the members -/

theorem lookup_fields (request : Request) (name : String) :
    request.fields.lookup name = (request.members.lookup name).map Member.value := by
  rw [fields]
  generalize request.members = members
  induction members with
  | nil => rfl
  | cons member members ih =>
      rw [List.map_cons, List.lookup_cons, List.lookup_cons, ih]
      split <;> rfl

theorem lookup_fields_of_not_mem {name : String} (h : name ∉ memberNames) :
    request.fields.lookup name = none := by
  rw [lookup_fields, Option.map_eq_none_iff, List.lookup_eq_none_iff]
  intro member hmem
  rw [bne_iff_ne]
  rintro rfl
  exact h ((names_members_sublist request).subset (List.mem_map_of_mem hmem))

theorem field?_eq_none {names : List String} (h : ∀ name ∈ names, name ∉ memberNames) :
    field? request.fields names = none := by
  induction names with
  | nil => rfl
  | cons name names ih =>
      rw [List.forall_mem_cons] at h
      simp only [field?, lookup_fields_of_not_mem h.1, ih h.2]

section OptionalField

variable {α : Type} {name : String} {names : List String} {check : List String → Json → Checked α}

theorem optionalField_of_lookup {member : Member} {value : α}
    (hlookup : request.members.lookup name = some member)
    (hcheck : check [name] member.value = .accepted value) (default : α) :
    optionalField request.fields (name :: names) default check = .accepted value := by
  have hfield : request.fields.lookup name = some member.value := by
    rw [lookup_fields, hlookup, Option.map_some]
  simp only [optionalField, field?, hfield, hcheck]

/-- No value is what the absence of a member that may be left out stands for. -/
theorem optionalField_of_lookup_map {β : Type} {check : List String → Json → Checked (Option β)}
    {value : Option β} {toMember : β → Member}
    (hlookup : request.members.lookup name = value.map toMember)
    (hnames : ∀ other ∈ names, other ∉ memberNames)
    (hcheck : ∀ found, check [name] (toMember found).value = .accepted (some found)) :
    optionalField request.fields (name :: names) none check = .accepted value := by
  cases value with
  | none =>
      have hfield : request.fields.lookup name = none := by
        rw [lookup_fields, hlookup]
        rfl
      simp only [optionalField, field?, hfield, field?_eq_none hnames]
  | some value => exact optionalField_of_lookup hlookup (hcheck value) none

end OptionalField

theorem lookup_optionalMember (name key : String) (value : Option Member) :
    (optionalMember name value).lookup key = if key = name then value else none := by
  cases value with
  | none => rw [ite_self]; rfl
  | some value =>
      rw [optionalMember, List.lookup_cons]
      split
      · next h => rw [if_pos (beq_iff_eq.1 h)]
      · next h => rw [if_neg (beq_eq_false_iff_ne.1 h)]; rfl

theorem ofFields_fields (request : Request) : ofFields request.fields = .accepted request := by
  have hmethod : request.members.lookup "method" = some (.text request.method.name) := by
    simp [members]
  have hurl : request.members.lookup "url" = some (.text request.url) := by
    simp [members, List.lookup_cons]
  have hheaders : request.members.lookup "headers" = some (.group request.headers.entries) := by
    simp [members, List.lookup_cons]
  have hbody : request.members.lookup "body" = request.body.map .text := by
    simp [members, lookup_optionalMember, List.lookup_append, List.lookup_cons]
  have htype : request.members.lookup "contentType" = request.contentType.map .text := by
    simp [members, lookup_optionalMember, List.lookup_append, List.lookup_cons]
  have hauth : request.members.lookup "auth" =
      request.credentials.map fun credentials => .group (credentialMembers credentials) := by
    simp [members, lookup_optionalMember, List.lookup_append, List.lookup_cons]
  have hfollow : request.members.lookup "followRedirects" =
      some (.flag request.followRedirects) := by
    simp [members, lookup_optionalMember, List.lookup_append, List.lookup_cons]
  have hinsecure : request.members.lookup "insecure" = some (.flag request.insecure) := by
    simp [members, lookup_optionalMember, List.lookup_append, List.lookup_cons]
  have hname : Method.ofString <$> Checked.text ["method"] (Member.text request.method.name).value =
      .accepted request.method :=
    congrArg Checked.accepted request.method.ofString_name
  rw [ofFields, optionalField_of_lookup hmethod hname, optionalField_of_lookup hurl rfl,
    optionalField_of_lookup hheaders (Checked.headers_value_group _ request.headers),
    optionalField_of_lookup_map hbody (by simp) fun _ => rfl,
    optionalField_of_lookup_map htype (by decide) fun _ => rfl,
    optionalField_of_lookup_map hauth (by simp) (Checked.credentials_value_group _),
    optionalField_of_lookup hfollow rfl, optionalField_of_lookup hinsecure rfl]
  rfl

/-- The JSON of a request is an object, whose members are the fields of the same request. -/
theorem exists_read_toJson (request : Request) :
    ∃ members, Json.read request.toJson = .ok (.object members) ∧
      ofFields members = .accepted request :=
  ⟨request.fields, request.read_toJson, request.ofFields_fields⟩

/-- No headers are an empty object, and what has no value is left out. -/
example :
    toJson { url := "/\x01", body := some "\\\"" } =
      "\x7b\n  \"method\": \"GET\",\n  \"url\": \"/\\u0001\",\n  \"headers\": \x7b\x7d,\n" ++
        "  \"body\": \"\\\\\\\"\",\n  \"followRedirects\": true,\n  \"insecure\": false\n\x7d" := by
  decide +kernel

end Request

end RequestForms
