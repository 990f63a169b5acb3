import RequestForms.Command.Session
import RequestForms.Proofs.Command.Unquoted

/-!
# The name of the program

A command says the same with the name of the program in front and without it, whatever blanks and
joined lines it starts or ends with. Only a command that has the name already is read without it.
-/

namespace RequestForms.Command

/-- A command that has the name of the program in front: once its lines are joined and the blanks
around it are gone, it starts with the name and a blank. -/
def NamesProgram (text : List Char) : Prop :=
  ∃ b rest, Text.isBlank b = true ∧ Text.strip (joinLines text) = "curl".toList ++ b :: rest

/-- Nothing is dropped from the front of a text that does not start with the name and a blank. -/
theorem dropProgramName_eq_self_iff {text : List Char} :
    dropProgramName text = text ↔
      ¬∃ b rest, Text.isBlank b = true ∧ text = "curl".toList ++ b :: rest := by
  constructor
  · rintro h ⟨b, rest, hb, rfl⟩
    change dropProgramName ('c' :: 'u' :: 'r' :: 'l' :: b :: rest) = _ at h
    rw [dropProgramName, if_pos hb] at h
    have hlength := Text.length_stripStart_le rest
    rw [h, List.length_append, List.length_cons] at hlength
    omega
  · intro h
    unfold dropProgramName
    split
    · next b rest =>
        rw [if_neg]
        exact fun hb => h ⟨b, rest, hb, rfl⟩
    · rfl

theorem normalizeChars_eq_strip_iff {text : List Char} :
    normalizeChars text = Text.strip (joinLines text) ↔ ¬NamesProgram text :=
  dropProgramName_eq_self_iff

instance (text : List Char) : Decidable (NamesProgram text) :=
  decidable_of_iff (¬normalizeChars text = Text.strip (joinLines text)) <| by
    rw [normalizeChars_eq_strip_iff, Classical.not_not]

/-- Unless a command has the name of the program already, it says the same with the name in
front. -/
theorem read_curl_append {text : String} (h : ¬NamesProgram text.toList) :
    read ("curl " ++ text) = read text := by
  have htext : ("curl " ++ text).toList = "curl".toList ++ ' ' :: text.toList := by
    rw [String.toList_append]
    rfl
  have hwithout : normalize text = String.ofList (Text.strip (joinLines text.toList)) := by
    rw [normalize, normalizeChars_eq_strip_iff.2 h]
  have hwith : normalize ("curl " ++ text) =
      String.ofList (if Text.stripEnd (joinLines text.toList) = [] then "curl".toList
        else Text.strip (joinLines text.toList)) := by
    rw [normalize, htext, normalizeChars_curl, Text.stripStart_stripEnd]
  by_cases hempty : Text.stripEnd (joinLines text.toList) = []
  · -- the name alone stays, as a word that says nothing
    rw [if_pos hempty] at hwith
    rw [← Text.stripStart_stripEnd, hempty] at hwithout
    rw [read, read, arguments, arguments, hwith, hwithout]
    decide +kernel
  · rw [if_neg hempty] at hwith
    rw [read, read, arguments, arguments, hwith, hwithout]

/-- Joined lines at both ends, a quote that is left open, and a word that only begins with the
name. -/
theorem read_curl_append_of_joined_lines :
    let text := "\\\n \t curling -d\\\r\n '/x \\\n "
    ¬NamesProgram text.toList ∧ read ("curl " ++ text) = read text := by
  intro text
  have hname : ¬NamesProgram text.toList := by decide +kernel
  exact ⟨hname, read_curl_append hname⟩

end RequestForms.Command
