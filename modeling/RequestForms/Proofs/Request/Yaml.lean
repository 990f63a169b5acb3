import RequestForms.Proofs.Request.Json
import RequestForms.Proofs.Text.Lines
import RequestForms.Proofs.Yaml.Entry
import RequestForms.Request.Document

/-!
# Requests told apart by their YAML

What stands behind a key tells whether the member is a text, a flag or a group, and where it ends.
So the members can be told from the lines of a document, and the request from its members.
-/

namespace RequestForms

/-! ## Values -/

namespace Yaml

/-- The member that the text of a scalar makes. Between quotes no text is a flag. -/
def scalarMember (code s : List Char) : Member :=
  if code.head? = some '\'' ∨ code.head? = some '"' then .text (String.ofList s)
  else if s = "true".toList then .flag true
  else if s = "false".toList then .flag false
  else .text (String.ofList s)

def readValue : List Char → Option (Member × List Char)
  | ' ' :: '\x7b' :: '\x7d' :: rest => some (.group [], rest)
  | ' ' :: code => (readScalar 2 code).map fun found => (scalarMember code found.1, found.2)
  | _ => none

theorem readValue_scalar {code : List Char} (h : code.head? ≠ some '\x7b') :
    readValue (' ' :: code) =
      (readScalar 2 code).map fun found => (scalarMember code found.1, found.2) := by
  unfold readValue
  split
  · next heq =>
      rw [(List.cons.inj heq).2] at h
      exact absurd rfl h
  · next heq => rw [(List.cons.inj heq).2]
  · next hnot => exact absurd rfl (hnot code)

/-- The texts that a flag is written as are quoted. -/
theorem isPlain_flag : isPlain "true".toList = false ∧ isPlain "false".toList = false := by
  decide

theorem scalarMember_scalar_append (column : Nat) (s rest : List Char) :
    scalarMember (scalar (some 2) column s ++ rest) s = .text (String.ofList s) := by
  have hwidth : 2 < width := by decide
  rcases scalar_cases (.some 2 s) hwidth column with ⟨hplain, -⟩ | ⟨lines, -, heq⟩ | ⟨code, -, heq⟩
  · have htrue : s ≠ "true".toList := by
      rintro rfl
      exact Bool.noConfusion (isPlain_flag.1.symm.trans hplain)
    have hfalse : s ≠ "false".toList := by
      rintro rfl
      exact Bool.noConfusion (isPlain_flag.2.symm.trans hplain)
    rw [scalarMember, if_neg htrue, if_neg hfalse, ite_self]
  · rw [heq]
    exact if_pos (Or.inl rfl)
  · rw [heq]
    exact if_pos (Or.inr rfl)

end Yaml

namespace Member

open Yaml

def valueCode (name : String) : Member → List Char
  | text value => ' ' :: scalar (some 2) (columnBehind 0 name.toList + 1) value.toList
  | flag value => (if value then " true" else " false").toList
  | group [] => " \x7b\x7d".toList
  | group (entry :: entries) => entryLines 2 (entry :: entries)

def IsInline : Member → Prop
  | group (_ :: _) => False
  | _ => True

theorem exists_of_not_isInline {member : Member} (h : ¬member.IsInline) :
    ∃ entry entries, member = group (entry :: entries) := by
  unfold IsInline at h
  split at h
  · exact ⟨_, _, rfl⟩
  · exact absurd trivial h

variable {name : String} {rest : List Char}

theorem readValue_text (value : String) (hrest : endsPlain 2 rest = true) :
    readValue (valueCode name (text value) ++ rest) = some (text value, rest) := by
  have hwidth : 2 < width := by decide
  have hfolding := FoldsAt.some 2 value.toList
  let column := columnBehind 0 name.toList + 1
  have hread := readScalar_scalar_append hfolding (by decide) hwidth column hrest
  have hhead : (scalar (some 2) column value.toList ++ rest).head? ≠ some '\x7b' := by
    obtain ⟨c, code, heq, -, hc, -⟩ := exists_cons_scalar hfolding hwidth column
    rw [heq]
    exact fun h => hc (Option.some.inj h)
  change readValue (' ' :: (scalar (some 2) column value.toList ++ rest)) = _
  rw [readValue_scalar hhead, hread, Option.map_some, scalarMember_scalar_append,
    String.ofList_toList]

theorem readValue_flag (value : Bool) (hrest : endsPlain 2 rest = true) :
    readValue (valueCode name (flag value) ++ rest) = some (flag value, rest) := by
  have hread : ∀ word ∈ ["true".toList, "false".toList],
      readScalar 2 (word ++ rest) = some (word, rest) := by
    intro word hword
    have hchars : ∀ word ∈ ["true".toList, "false".toList], '\n' ∉ word ∧
        holdsIndicator false word = false ∧ word ≠ [] ∧
        ∀ d ∈ ['\'', '"'], word.head? ≠ some d := by
      decide
    obtain ⟨hbreak, hindicator, hne, hquote⟩ := hchars word hword
    have hfolds : Folds 2 (word ++ []) (word ++ []) := Folds.append hbreak .nil
    rw [List.append_nil] at hfolds
    refine readScalar_append_of_folds (by decide) hfolds hindicator hbreak (fun d hd => ?_) hrest
    rw [List.head?_append_of_ne_nil word hne]
    exact hquote d hd
  cases value with
  | true =>
      change readValue (' ' :: ("true".toList ++ rest)) = _
      rw [readValue_scalar (by simp), hread _ (by simp)]
      rfl
  | false =>
      change readValue (' ' :: ("false".toList ++ rest)) = _
      rw [readValue_scalar (by simp), hread _ (by simp)]
      rfl

/-- A member comes back from the line of its key. -/
theorem readValue_valueCode {member : Member} (h : member.IsInline)
    (hrest : endsPlain 2 rest = true) :
    readValue (valueCode name member ++ rest) = some (member, rest) := by
  cases member with
  | text value => exact readValue_text value hrest
  | flag value => exact readValue_flag value hrest
  | group entries =>
      cases entries with
      | nil => rfl
      | cons entry entries => exact absurd h id

theorem readValue_group (entry : String × String) (entries : List (String × String)) :
    readValue (valueCode name (group (entry :: entries)) ++ rest) = none := by
  rw [valueCode, entryLines_cons]
  rfl

theorem valueCode_append_inj {member member' : Member} {rest' : List Char}
    (hrest : endsPlain 2 rest = true) (hrest' : endsPlain 2 rest' = true)
    (h : valueCode name member ++ rest = valueCode name member' ++ rest') :
    member = member' ∧ rest = rest' := by
  have hread := congrArg readValue h
  by_cases hinline : member.IsInline
  · rw [readValue_valueCode hinline hrest] at hread
    by_cases hinline' : member'.IsInline
    · rw [readValue_valueCode hinline' hrest'] at hread
      exact Prod.mk.inj (Option.some.inj hread)
    · obtain ⟨entry, entries, rfl⟩ := exists_of_not_isInline hinline'
      rw [readValue_group] at hread
      cases hread
  · obtain ⟨entry, entries, rfl⟩ := exists_of_not_isInline hinline
    rw [readValue_group] at hread
    by_cases hinline' : member'.IsInline
    · rw [readValue_valueCode hinline' hrest'] at hread
      cases hread
    · obtain ⟨entry', entries', rfl⟩ := exists_of_not_isInline hinline'
      obtain ⟨hentries, hrests⟩ := entryLines_append_inj (by decide) hrest hrest' h
      exact ⟨congrArg group hentries, hrests⟩

theorem isSeparated_valueCode_append (member : Member) (rest : List Char) :
    isSeparated (valueCode name member ++ rest) = true := by
  cases member with
  | text value => rfl
  | flag value => cases value <;> rfl
  | group entries =>
      cases entries with
      | nil => rfl
      | cons entry entries =>
          rw [valueCode, entryLines_cons]
          rfl

end Member

/-! ## Members -/

namespace Request

open Yaml

def memberCode (members : List (String × Member)) : List Char :=
  members.flatMap fun member =>
    '\n' :: (keyPart 0 member.1.toList ++ member.2.valueCode member.1)

theorem memberCode_cons (member : String × Member) (members : List (String × Member)) :
    memberCode (member :: members) =
      '\n' :: (keyPart 0 member.1.toList ++
        (member.2.valueCode member.1 ++ memberCode members)) := by
  rw [memberCode, List.flatMap_cons, List.cons_append, List.append_assoc]
  rfl

theorem flatMap_memberLines (member : String × Member) :
    (memberLines member).flatMap ('\n' :: ·) =
      '\n' :: (keyPart 0 member.1.toList ++ member.2.valueCode member.1) := by
  obtain ⟨name, member⟩ := member
  cases member with
  | text value =>
      rw [memberLines, List.flatMap_singleton, textEntry]
      rfl
  | flag value => rw [memberLines, List.flatMap_singleton, Member.valueCode]
  | group entries =>
      cases entries with
      | nil => rw [memberLines, List.flatMap_singleton, Member.valueCode]
      | cons entry entries =>
          rw [memberLines, List.flatMap_cons, List.flatMap_map, Member.valueCode, entryLines]
          · rfl
          · exact List.cons_ne_nil entry entries

/-- A document is the code of its members without the first line break. -/
theorem memberCode_members (request : Request) :
    memberCode request.members = '\n' :: request.toYaml.toList := by
  have hlines : memberCode request.members =
      (request.members.flatMap memberLines).flatMap ('\n' :: ·) := by
    rw [List.flatMap_assoc, memberCode]
    exact congrArg (request.members.flatMap ·) (funext fun m => (flatMap_memberLines m).symm)
  obtain ⟨line, lines, hcode⟩ : ∃ line lines, request.members.flatMap memberLines = line :: lines :=
    ⟨_, _, rfl⟩
  rw [hlines, toYaml, String.toList_ofList, hcode, Text.intercalate_cons, List.flatMap_cons]
  rfl

theorem endsPlain_memberCode (members : List (String × Member)) :
    endsPlain 2 (memberCode members) = true := by
  cases members with
  | nil => rfl
  | cons member members =>
      obtain ⟨c, code, heq, hc⟩ := exists_keyPart_append (by decide : 0 + 2 < width)
        member.1.toList (member.2.valueCode member.1 ++ memberCode members)
      rw [memberCode_cons, heq]
      exact endsPlain_line (by decide) hc code

theorem memberCode_inj {members members' : List (String × Member)}
    (h : memberCode members = memberCode members') : members = members' := by
  induction members generalizing members' with
  | nil =>
      cases members' with
      | nil => rfl
      | cons member' members' => rw [memberCode_cons] at h; cases h
  | cons member members ih =>
      obtain ⟨name, member⟩ := member
      cases members' with
      | nil => rw [memberCode_cons] at h; cases h
      | cons member' members' =>
          obtain ⟨name', member'⟩ := member'
          rw [memberCode_cons, memberCode_cons, List.cons.injEq] at h
          obtain ⟨hname, h⟩ := keyPart_append_inj (by decide : 0 + 2 < width)
            (member.isSeparated_valueCode_append _) (member'.isSeparated_valueCode_append _) h.2
          obtain rfl := String.toList_inj.1 hname
          obtain ⟨hmember, hmembers⟩ : member = member' ∧ memberCode members = memberCode members' :=
            Member.valueCode_append_inj (endsPlain_memberCode members)
              (endsPlain_memberCode members') h
          rw [hmember, ih hmembers]

/-! ## Requests -/

/-- The members of a request are the fields that it is made from. -/
theorem eq_of_members_eq {r s : Request} (h : r.members = s.members) : r = s := by
  have hfields : r.fields = s.fields := by
    rw [fields, fields, h]
  have haccepted := r.ofFields_fields
  rw [hfields, s.ofFields_fields] at haccepted
  exact (Checked.accepted.inj haccepted).symm

/-- Different requests have different documents. -/
theorem toYaml_inj {r s : Request} : r.toYaml = s.toYaml ↔ r = s := by
  refine ⟨fun h => eq_of_members_eq (memberCode_inj ?_), congrArg toYaml⟩
  rw [memberCode_members, memberCode_members, h]

end Request

end RequestForms
