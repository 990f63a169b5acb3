import RequestForms.Proofs.Command.Arguments
import RequestForms.Proofs.Command.LastWins
import RequestForms.Proofs.Shell.Styles

/-!
# Commands of quoted arguments

An argument list is written as a command by quoting each argument. All arguments come back but for
the empty ones, since an empty word is no word. A bare one is not missed, but where a flag has an
empty value the next argument takes its place.
-/

namespace RequestForms.Command

open Text (isUnbroken isUnbroken_cons)

def quoted (args : List String) : String := "curl " ++ " ".intercalate (args.map Shell.quote)

/-! ## The words of the command -/

/-- The name of the program does not count in front of a field. -/
theorem normalizeChars_append_field {field : List Char} (h : IsField field) :
    normalizeChars ("curl".toList ++ ' ' :: field) = field := by
  have hunbroken : isUnbroken ("curl".toList ++ ' ' :: field) = true :=
    Text.isUnbroken_append (by decide) (isUnbroken_cons.2 ⟨by simp, h.unbroken⟩)
      ⟨by simp, by simp⟩
  have hjoin : joinLines ("curl".toList ++ ' ' :: field) = "curl".toList ++ ([' '] ++ field) :=
    joinLines_of_isUnbroken hunbroken
  have hne : field ≠ [] := by
    obtain ⟨c, rest, hhead, -⟩ := h.head
    rw [hhead]
    exact List.cons_ne_nil _ _
  exact normalizeChars_of_joinLines hjoin (by decide) (by simp)
    (Text.strip_eq_self_of_ends h.head h.last) hne

theorem isField_intercalate_quote {args : List String} (hne : args ≠ [])
    (h : ∀ arg ∈ args, isUnbroken arg.toList = true) :
    IsField (" ".intercalate (args.map Shell.quote)).toList := by
  rw [String.toList_intercalate]
  induction args with
  | nil => exact absurd rfl hne
  | cons arg args ih =>
      have harg : IsField (Shell.quote arg).toList := by
        rw [Shell.toList_quote]
        exact isField_quoteChars (h arg (by simp))
      cases args with
      | nil => simpa using harg
      | cons next args =>
          have hnext := ih (by simp) fun a ha => h a (List.mem_cons_of_mem arg ha)
          simpa using harg.space_append hnext

theorem arguments_quoted {args : List String} (hne : args ≠ [])
    (h : ∀ arg ∈ args, isUnbroken arg.toList = true) :
    arguments (quoted args) = args.filter fun arg => arg ≠ "" := by
  have htext : (quoted args).toList =
      "curl".toList ++ ' ' :: (" ".intercalate (args.map Shell.quote)).toList := by
    rw [quoted, String.toList_append]
    rfl
  rw [← Shell.words_intercalate_quote, arguments, normalize, htext,
    normalizeChars_append_field (isField_intercalate_quote hne h), String.ofList_toList]

/-! ## Empty arguments -/

theorem ne_empty_of_ofWord? {word : String} {flag : Flag} (h : Flag.ofWord? word = some flag) :
    word ≠ "" := by
  rintro rfl
  cases h

/-- Without empty values, no part of a command changes but that the empty words are gone. -/
theorem items_filter_ne_empty {args : List String}
    (h : ∀ flag, Item.setting flag "" ∉ items args) :
    items (args.filter fun arg => arg ≠ "") = (items args).filter fun item => item ≠ .word "" := by
  induction args using items.induct with
  | case1 => rfl
  | case2 word rest hword ih =>
      rw [items, hword] at h ⊢
      have hrest := ih fun flag hmem => h flag (List.mem_cons_of_mem _ hmem)
      by_cases hempty : word = ""
      · simpa [hempty] using hrest
      · rw [List.filter_cons_of_pos (by simpa using hempty), items, hword, hrest]
        simp [hempty]
  | case3 word rest flag hword ih =>
      rw [items, hword] at h ⊢
      have hrest := ih fun flag hmem => h flag (List.mem_cons_of_mem _ hmem)
      rw [List.filter_cons_of_pos (by simpa using ne_empty_of_ofWord? hword), items, hword, hrest]
      rfl
  | case4 word flag hword =>
      have hitems : items [word] = [] := by rw [items, hword]
      rw [List.filter_cons_of_pos (by simpa using ne_empty_of_ofWord? hword), List.filter_nil, hitems]
      rfl
  | case5 word flag hword value rest ih =>
      rw [items, hword] at h ⊢
      have hrest := ih fun flag hmem => h flag (List.mem_cons_of_mem _ hmem)
      have hvalue : value ≠ "" := by
        rintro rfl
        exact h flag List.mem_cons_self
      rw [List.filter_cons_of_pos (by simpa using ne_empty_of_ofWord? hword),
        List.filter_cons_of_pos (by simpa using hvalue), items, hword]
      change Item.setting flag value :: items _ = _
      rw [hrest]
      rfl

/-- The parts of a command are the same without its empty arguments exactly if none of them is the
value of a flag. -/
theorem items_filter_ne_empty_iff {args : List String} :
    (items (args.filter fun arg => arg ≠ "") =
      (items args).filter fun item => item ≠ .word "") ↔
        ∀ flag, Item.setting flag "" ∉ items args := by
  refine ⟨fun heq flag hmem => ?_, items_filter_ne_empty⟩
  have hkept : Item.setting flag "" ∈ items (args.filter fun arg => arg ≠ "") := by
    rw [heq]
    exact List.mem_filter.2 ⟨hmem, by simp⟩
  have hwords : ∀ word ∈ args.filter fun arg => arg ≠ "", word ≠ "" := by simp
  exact ne_empty_of_setting_mem_items hwords hkept rfl

theorem Session.foldl_apply_filter (items : List Item) (session : Session) :
    (items.filter fun item => item ≠ .word "").foldl apply session =
      items.foldl apply session := by
  have happly : (fun (session : Session) (item : Item) =>
      if decide (item ≠ .word "") = true then session.apply item else session) = apply := by
    funext session item
    split
    · rfl
    · next h =>
        obtain rfl : item = .word "" := by simpa using h
        rfl
  rw [List.foldl_filter, happly]

/-- An argument list without empty values says the same without its empty arguments. -/
theorem ofArguments_filter {args : List String} (h : ∀ flag, Item.setting flag "" ∉ items args) :
    ofArguments (args.filter fun arg => arg ≠ "") = ofArguments args := by
  rw [ofArguments, run, items_filter_ne_empty_iff.2 h, Session.foldl_apply_filter]
  rfl

/-! ## Reading the command -/

theorem read_quoted_eq {args : List String} (h : ∀ arg ∈ args, isUnbroken arg.toList = true) :
    read (quoted args) = ofArguments (args.filter fun arg => arg ≠ "") := by
  cases args with
  | nil =>
      -- here the name of the program stays, as a word that says nothing
      decide +kernel
  | cons arg args => rw [read, arguments_quoted (by simp) h]

/-- The command of an argument list says what the arguments that are not empty say, which is what
all of them say if no flag has an empty value. -/
theorem read_quoted {args : List String} (h : ∀ arg ∈ args, isUnbroken arg.toList = true) :
    read (quoted args) = ofArguments (args.filter fun arg => arg ≠ "") ∧
      ((∀ flag, Item.setting flag "" ∉ items args) → read (quoted args) = ofArguments args) :=
  ⟨read_quoted_eq h, fun hvalues => (read_quoted_eq h).trans (ofArguments_filter hvalues)⟩

/-- Quotes, spaces and names of flags inside of arguments change nothing, nor do empty words. -/
theorem read_quoted_of_empty_words :
    let args := ["", "-d", "-X 'PUT'", "", "-H", "A:\\ -k", "/it's", ""]
    (∀ arg ∈ args, isUnbroken arg.toList = true) ∧ (∀ flag, Item.setting flag "" ∉ items args) ∧
      read (quoted args) = ofArguments args := by
  intro args
  have hunbroken : ∀ arg ∈ args, isUnbroken arg.toList = true := by decide
  have hvalues : ∀ flag, Item.setting flag "" ∉ items args := by
    intro flag
    cases flag <;> decide +kernel
  exact ⟨hunbroken, hvalues, (read_quoted hunbroken).2 hvalues⟩

/-- An empty body makes the address the body. -/
theorem read_quoted_ne_of_empty_value :
    let args := ["-d", "", "/x"]
    (∀ arg ∈ args, isUnbroken arg.toList = true) ∧
      (ofArguments args).url = "/x" ∧ (ofArguments args).body = some "" ∧
      (read (quoted args)).url = "" ∧ (read (quoted args)).body = some "/x" ∧
      read (quoted args) ≠ ofArguments args := by
  decide +kernel

end RequestForms.Command
