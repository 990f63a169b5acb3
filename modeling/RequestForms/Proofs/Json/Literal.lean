import Mathlib.Data.List.Forall2
import RequestForms.Json.Literal
import RequestForms.Proofs.Headers
import RequestForms.Proofs.Json.Reader
import RequestForms.Proofs.Text.Lines

/-!
# Reading back what is written

A written string is read as the text that it was written for, with every control character, and an
object with one member a line as the members, if their names are distinct. Nothing that follows
changes this.
-/

namespace RequestForms.Json

variable {α : Type}

/-- A reader that takes a value off a text and leaves the rest. -/
def Takes (reader : Reader α) (text : List Char) (found : α) (rest : List Char) : Prop :=
  ∃ shorter, reader text = .ok ⟨found, rest, shorter⟩

theorem Takes.length_lt {reader : Reader α} {text rest : List Char} {found : α}
    (h : Takes reader text found rest) : rest.length < text.length := by
  obtain ⟨hshorter, -⟩ := h
  exact hshorter

/-! ## Strings -/

theorem hexValue?_hexDigit : ∀ n < 16, hexValue? (Text.hexDigit 'a' n) = some n := by
  decide

theorem hexUnit?_hex {n : Nat} (h : n < 0x10000) {rest : List Char} (hrest : rest ≠ []) :
    hexUnit? (Text.hex 'a' 4 n ++ rest) = some (n, rest) := by
  obtain ⟨e, rest, rfl⟩ := List.exists_cons_of_ne_nil hrest
  have hdigit : ∀ m, hexValue? (Text.hexDigit 'a' (m % 16)) = some (m % 16) := fun m =>
    hexValue?_hexDigit _ (Nat.mod_lt m (by decide))
  have hunit : ((n / 16 / 16 / 16 % 16 * 16 + n / 16 / 16 % 16) * 16 + n / 16 % 16) * 16 + n % 16 =
      n := by
    omega
  simp only [Text.hex, List.nil_append, List.cons_append, hexUnit?, hdigit, hunit]

theorem mem_of_unescaped? {e c : Char} (h : unescaped? e = some c) : e ∈ "\"\\/bfnrt".toList := by
  unfold unescaped? at h
  split at h
  case h_9 => cases h
  all_goals decide

/-- The three ways in which a character is written. -/
theorem escaped_cases (c : Char) :
    (∃ e, escaped c = ['\\', e] ∧ unescaped? e = some c) ∨
      (escaped c = '\\' :: 'u' :: Text.hex 'a' 4 c.toNat ∧ c.toNat < 0x20) ∨
      (escaped c = [c] ∧ c ≠ '"' ∧ c ≠ '\\' ∧ ¬c.toNat < 0x20) := by
  by_cases hquote : c = '"'
  · exact Or.inl ⟨'"', by rw [hquote]; rfl, by rw [hquote]; rfl⟩
  by_cases hescape : c = '\\'
  · exact Or.inl ⟨'\\', by rw [hescape]; rfl, by rw [hescape]; rfl⟩
  by_cases hb : c = '\x08'
  · exact Or.inl ⟨'b', by rw [hb]; rfl, by rw [hb]; rfl⟩
  by_cases hf : c = '\x0c'
  · exact Or.inl ⟨'f', by rw [hf]; rfl, by rw [hf]; rfl⟩
  by_cases hn : c = '\n'
  · exact Or.inl ⟨'n', by rw [hn]; rfl, by rw [hn]; rfl⟩
  by_cases hr : c = '\r'
  · exact Or.inl ⟨'r', by rw [hr]; rfl, by rw [hr]; rfl⟩
  by_cases ht : c = '\t'
  · exact Or.inl ⟨'t', by rw [ht]; rfl, by rw [ht]; rfl⟩
  rw [escaped, if_neg hquote, if_neg hescape, if_neg hb, if_neg hf, if_neg hn, if_neg hr,
    if_neg ht]
  by_cases hcontrol : c.toNat < 0x20
  · exact Or.inr (Or.inl ⟨if_pos hcontrol, hcontrol⟩)
  · exact Or.inr (Or.inr ⟨if_neg hcontrol, hquote, hescape, hcontrol⟩)

theorem head?_escaped_append (c : Char) (rest : List Char) :
    (escaped c ++ rest).head? ≠ some '"' := by
  rcases escaped_cases c with ⟨e, h, -⟩ | ⟨h, -⟩ | ⟨h, hquote, -⟩
  · simp [h]
  · simp [h]
  · simpa [h] using hquote

theorem length_lt_cons_cons (a b : Char) (rest : List Char) :
    rest.length < (a :: b :: rest).length := by
  simp only [List.length_cons]
  omega

theorem takes_character_escape (opening rest : List Char) {e c : Char}
    (h : unescaped? e = some c) : Takes (character opening) ('\\' :: e :: rest) c rest := by
  refine ⟨length_lt_cons_cons _ _ rest, ?_⟩
  unfold unescaped? at h
  split at h
  case h_9 => cases h
  all_goals
    obtain rfl := Option.some.inj h
    rfl

theorem takes_character_of_hexUnit? (opening : List Char) {text behind : List Char} {unit : Nat}
    (h : hexUnit? text = some (unit, behind)) :
    Takes (character opening) ('\\' :: 'u' :: text) (characterOf unit behind).1
      (characterOf unit behind).2 := by
  have hunit := length_of_hexUnit? h
  have hbehind := length_characterOf_le unit behind
  refine ⟨by simp only [List.length_cons]; omega, ?_⟩
  simp only [character]
  split
  · next hnone =>
      rw [h] at hnone
      cases hnone
  · next hsome =>
      obtain ⟨rfl, rfl⟩ := Prod.mk.inj (Option.some.inj (hsome.symm.trans h))
      rfl

theorem takes_character_unicode (opening : List Char) {n : Nat} (hn : n < 0x20) {rest : List Char}
    (hrest : rest ≠ []) :
    Takes (character opening) ('\\' :: 'u' :: Text.hex 'a' 4 n ++ rest) (Char.ofNat n) rest := by
  have hunit := hexUnit?_hex (Nat.lt_trans hn (by decide)) hrest
  have hcharacter : characterOf n rest = (Char.ofNat n, rest) := by
    have hhigh : isHighSurrogate n = false := by
      simp only [isHighSurrogate, Bool.and_eq_false_iff, decide_eq_false_iff_not]
      omega
    have hlow : isLowSurrogate n = false := by
      simp only [isLowSurrogate, Bool.and_eq_false_iff, decide_eq_false_iff_not]
      omega
    simp only [characterOf, hhigh, hlow, Bool.false_eq_true, if_false]
  have htakes := takes_character_of_hexUnit? opening hunit
  rw [hcharacter] at htakes
  exact htakes

theorem takes_character_raw (opening rest : List Char) {c : Char} (hescape : c ≠ '\\')
    (hcontrol : ¬c.toNat < 0x20) : Takes (character opening) (c :: rest) c rest := by
  refine ⟨by simp, ?_⟩
  rw [character, if_neg hcontrol]
  · exact fun h _ => hescape h
  · exact fun _ h _ => hescape h
  · exact fun _ _ h _ => hescape h

/-- A character of a string is a unit after its escape, an escape letter, or itself. -/
theorem takes_character_cases {opening text rest : List Char} {c : Char}
    (h : Takes (character opening) text c rest) :
    (∃ tail unit behind, text = '\\' :: 'u' :: tail ∧ hexUnit? tail = some (unit, behind) ∧
        characterOf unit behind = (c, rest)) ∨
      (∃ letter, text = '\\' :: letter :: rest ∧ unescaped? letter = some c) ∨
      (text = c :: rest ∧ c ≠ '\\' ∧ ¬c.toNat < 0x20) := by
  obtain ⟨hshorter, h⟩ := h
  unfold character at h
  split at h
  · cases h
  · cases h
  · next tail =>
      split at h
      · cases h
      · next unit behind hunit =>
          obtain ⟨hc, hrest⟩ := Taken.mk.inj (Except.ok.inj h)
          exact Or.inl ⟨tail, unit, behind, rfl, hunit, Prod.ext hc hrest⟩
  · next letter tail _ =>
      split at h
      · cases h
      · next found hfound =>
          obtain ⟨rfl, rfl⟩ := Taken.mk.inj (Except.ok.inj h)
          exact Or.inr (Or.inl ⟨letter, rfl, hfound⟩)
  · next d tail hend _ hescape =>
      split at h
      · cases h
      · next hcontrol =>
          obtain ⟨rfl, rfl⟩ := Taken.mk.inj (Except.ok.inj h)
          refine Or.inr (Or.inr ⟨rfl, ?_, hcontrol⟩)
          rintro rfl
          cases tail with
          | nil => exact hend rfl rfl
          | cons e tail => exact hescape e tail rfl rfl

theorem takes_character (opening : List Char) (c : Char) {rest : List Char} (hrest : rest ≠ []) :
    Takes (character opening) (escaped c ++ rest) c rest := by
  rcases escaped_cases c with ⟨e, h, he⟩ | ⟨h, hcontrol⟩ | ⟨h, hquote, hescape, hcontrol⟩
  · rw [h]
    exact takes_character_escape opening rest he
  · have hunicode := takes_character_unicode opening hcontrol hrest
    rwa [Char.ofNat_toNat, ← h] at hunicode
  · rw [h]
    exact takes_character_raw opening rest hescape hcontrol

section StringRules

variable {opening text rest behind found : List Char} {c : Char}

theorem takes_stringTail_nil (opening rest : List Char) :
    Takes (stringTail opening) ('"' :: rest) [] rest :=
  ⟨by simp, by rw [stringTail]⟩

theorem takes_stringTail_cons (hquote : text.head? ≠ some '"')
    (hcharacter : Takes (character opening) text c rest)
    (htail : Takes (stringTail opening) rest found behind) :
    Takes (stringTail opening) text (c :: found) behind := by
  obtain ⟨hrest, hcharacter⟩ := hcharacter
  obtain ⟨hbehind, htail⟩ := htail
  refine ⟨by omega, ?_⟩
  rw [stringTail]
  · simp only [hcharacter, htail]
  · rintro tail rfl
    exact hquote rfl

/-- What holds of the quotation mark that ends a string, and of each character with what holds of
the string behind it, holds of all that is read. -/
theorem takes_stringTail_induction {P : List Char → List Char → Prop} (nil : P ('"' :: rest) [])
    (cons : ∀ text c tail found, text.head? ≠ some '"' → Takes (character opening) text c tail →
      Takes (stringTail opening) tail found rest → P tail found → P text (c :: found))
    (h : Takes (stringTail opening) text found rest) : P text found := by
  obtain ⟨hshorter, h⟩ := h
  induction text using stringTail.induct opening generalizing found with
  | case1 tail =>
      rw [stringTail] at h
      obtain ⟨rfl, rfl⟩ := Taken.mk.inj (Except.ok.inj h)
      exact nil
  | case2 text hquote stop hcharacter =>
      rw [stringTail] at h
      · simp [hcharacter] at h
      · exact hquote
  | case3 text hquote c tail hshorter' hcharacter stop htail ih =>
      rw [stringTail] at h
      · simp [hcharacter, htail] at h
      · exact hquote
  | case4 text hquote c tail hshorter' hcharacter cs behind hbehind htail ih =>
      rw [stringTail] at h
      · simp only [hcharacter, htail] at h
        obtain ⟨rfl, rfl⟩ := Taken.mk.inj (Except.ok.inj h)
        have hhead : text.head? ≠ some '"' := by
          intro hhead
          obtain ⟨tail, rfl⟩ := List.head?_eq_some_iff.1 hhead
          exact hquote tail rfl
        exact cons text c tail cs hhead ⟨_, hcharacter⟩ ⟨_, htail⟩ (ih hbehind htail)
      · exact hquote

end StringRules

/-- A written text is read up to the quotation mark behind it. -/
theorem takes_stringTail (opening text rest : List Char) :
    Takes (stringTail opening) (text.flatMap escaped ++ '"' :: rest) text rest := by
  induction text with
  | nil => exact takes_stringTail_nil opening rest
  | cons c text ih =>
      have hbehind : text.flatMap escaped ++ '"' :: rest ≠ [] := by simp
      rw [List.flatMap_cons, List.append_assoc]
      -- no character is written as the quotation mark that ends the text
      exact takes_stringTail_cons (head?_escaped_append c _) (takes_character opening c hbehind) ih

/-! ## Values -/

/-- A text that is read as a value, whatever stands behind it. -/
structure Writes (depth : Nat) (text : List Char) (found : Json) : Prop where
  skipSpace_append : ∀ rest, skipSpace (text ++ rest) = text ++ rest
  takes : ∀ rest, Takes (value depth) (text ++ rest) found rest

theorem toList_stringLiteral_append (text : String) (rest : List Char) :
    (stringLiteral text).toList ++ rest = '"' :: (text.toList.flatMap escaped ++ '"' :: rest) := by
  simp [stringLiteral]

theorem skipSpace_cons {c : Char} (h : isSpace c = false) (rest : List Char) :
    skipSpace (c :: rest) = c :: rest :=
  skipSpace_eq_self (by rintro d ⟨⟩; exact h)

theorem takes_scalar_string {text rest found : List Char}
    (h : Takes (stringTail ('"' :: text)) text found rest) :
    Takes scalar ('"' :: text) (.string (String.ofList found)) rest := by
  obtain ⟨hshorter, h⟩ := h
  refine ⟨Nat.lt_succ_of_lt hshorter, ?_⟩
  simp only [scalar, h]

theorem writes_stringLiteral (depth : Nat) (text : String) :
    Writes depth (stringLiteral text).toList (.string text) where
  skipSpace_append := by
    intro rest
    rw [toList_stringLiteral_append]
    exact skipSpace_cons (by decide) _
  takes := by
    intro rest
    have htail := takes_stringTail ('"' :: (text.toList.flatMap escaped ++ '"' :: rest)) text.toList
      rest
    have hscalar := takes_scalar_string htail
    rw [String.ofList_toList] at hscalar
    rw [toList_stringLiteral_append, Takes, value_eq_scalar (by simp) (by simp)]
    exact hscalar

theorem takes_scalar_of_literal? {text rest : List Char} {found : Json}
    (hquote : text.head? ≠ some '"') (h : literal? text literals = some (found, rest)) :
    Takes scalar text found rest := by
  refine ⟨length_of_literal? (by decide) h, ?_⟩
  rw [scalar]
  · split
    · next value behind hsome =>
        obtain ⟨rfl, rfl⟩ := Prod.mk.inj (Option.some.inj (hsome.symm.trans h))
        rfl
    · next hnone =>
        rw [h] at hnone
        cases hnone
  · rintro behind rfl
    exact hquote rfl

theorem writes_bool (depth : Nat) (flag : Bool) :
    Writes depth (if flag then "true" else "false").toList (.bool flag) := by
  cases flag with
  | true =>
      refine ⟨fun rest => skipSpace_cons (by decide) _, fun rest => ?_⟩
      change Takes (value depth) ('t' :: 'r' :: 'u' :: 'e' :: rest) _ _
      rw [Takes, value_eq_scalar (by simp) (by simp)]
      exact takes_scalar_of_literal? (by simp) rfl
  | false =>
      refine ⟨fun rest => skipSpace_cons (by decide) _, fun rest => ?_⟩
      change Takes (value depth) ('f' :: 'a' :: 'l' :: 's' :: 'e' :: rest) _ _
      rw [Takes, value_eq_scalar (by simp) (by simp)]
      exact takes_scalar_of_literal? (by simp) rfl

/-! ## Objects -/

section Rules

variable {reader : Reader Json} {text rest behind left : List Char} {name : String} {found : Json}

theorem takes_members_last (hname : Takes memberName text name rest)
    (hfound : Takes reader (skipSpace rest) found behind) (hclose : skipSpace behind = '\x7d' :: left) :
    Takes (members reader) text [(name, found)] left := by
  obtain ⟨hrest, hname⟩ := hname
  obtain ⟨hbehind, hfound⟩ := hfound
  have hskip := length_skipSpace_le rest
  have hleft := length_lt_of_skipSpace_eq hclose
  refine ⟨by omega, ?_⟩
  rw [members]
  simp only [hname, hfound]
  split
  · next heq =>
      obtain rfl := (List.cons.inj (heq.symm.trans hclose)).2
      rfl
  · next heq => cases (List.cons.inj (heq.symm.trans hclose)).1
  · next hbrace _ => exact absurd hclose (hbrace left)

theorem takes_members_cons (hname : Takes memberName text name rest)
    (hfound : Takes reader (skipSpace rest) found behind) (hcomma : skipSpace behind = ',' :: left)
    {more : List (String × Json)} {last : List Char}
    (hmore : Takes (members reader) (skipSpace left) more last) :
    Takes (members reader) text ((name, found) :: more) last := by
  obtain ⟨hrest, hname⟩ := hname
  obtain ⟨hbehind, hfound⟩ := hfound
  obtain ⟨hlast, hmore⟩ := hmore
  have hskip := length_skipSpace_le rest
  have hskip' := length_skipSpace_le left
  have hleft := length_lt_of_skipSpace_eq hcomma
  refine ⟨by omega, ?_⟩
  rw [members]
  simp only [hname, hfound]
  split
  · next heq => cases (List.cons.inj (heq.symm.trans hcomma)).1
  · next heq =>
      obtain rfl := (List.cons.inj (heq.symm.trans hcomma)).2
      simp only [hmore]
  · next hother => exact absurd hcomma (hother left)

theorem not_takes_members_brace {members : List (String × Json)} :
    ¬Takes (Json.members reader) ('\x7d' :: text) members rest := by
  rintro ⟨_, h⟩
  rw [Json.members] at h
  cases h

theorem takes_objectTail {members : List (String × Json)}
    (hmembers : Takes (Json.members reader) (skipSpace text) members rest) :
    Takes (objectTail reader) text (.object (Assoc.ofPairs members)) rest := by
  have hskip := length_skipSpace_le text
  refine ⟨Nat.lt_of_lt_of_le hmembers.length_lt hskip, ?_⟩
  unfold objectTail
  split
  · -- what starts with the closing brace has no members
    next hbrace => exact absurd (hbrace ▸ hmembers) not_takes_members_brace
  · obtain ⟨_, hmembers⟩ := hmembers
    simp only [hmembers]

theorem takes_objectTail_nil (hclose : skipSpace text = '\x7d' :: rest) :
    Takes (objectTail reader) text (.object []) rest := by
  refine ⟨length_lt_of_skipSpace_eq hclose, ?_⟩
  unfold objectTail
  split
  · next hbrace =>
      obtain rfl := (List.cons.inj (hbrace.symm.trans hclose)).2
      rfl
  · next hother => exact absurd hclose (hother rest)

theorem takes_value_object {depth : Nat} (h : Takes (objectTail (value depth)) text found rest) :
    Takes (value (depth + 1)) ('\x7b' :: text) found rest := by
  obtain ⟨hrest, h⟩ := h
  refine ⟨by simp only [List.length_cons]; omega, ?_⟩
  simp only [value, h]

end Rules

/-- Line breaks and spaces are skipped together. -/
theorem skipSpace_append_of_space {front : List Char} (h : ∀ c ∈ front, isSpace c = true)
    (rest : List Char) : skipSpace (front ++ rest) = skipSpace rest := by
  rw [skipSpace, List.dropWhile_append_of_pos h]
  rfl

theorem takes_memberName_of_stringTail {text rest name behind : List Char}
    (htail : Takes (stringTail ('"' :: text)) text name rest)
    (hcolon : skipSpace rest = ':' :: behind) :
    Takes memberName ('"' :: text) (String.ofList name) behind := by
  obtain ⟨hrest, htail⟩ := htail
  have hbehind := length_lt_of_skipSpace_eq hcolon
  refine ⟨by simp only [List.length_cons]; omega, ?_⟩
  simp only [memberName, htail]
  split
  · next heq =>
      obtain rfl := (List.cons.inj (heq.symm.trans hcolon)).2
      rfl
  · next hother => exact absurd hcolon (hother behind)

theorem takes_memberName (name : String) (rest : List Char) :
    Takes memberName ((stringLiteral name).toList ++ ':' :: rest) name rest := by
  have hcolon : skipSpace (':' :: rest) = ':' :: rest := skipSpace_cons (by decide) rest
  have hname := takes_memberName_of_stringTail
    (takes_stringTail ('"' :: (name.toList.flatMap escaped ++ '"' :: ':' :: rest)) name.toList
      (':' :: rest)) hcolon
  rw [String.ofList_toList] at hname
  rw [toList_stringLiteral_append]
  exact hname

/-! ## One member a line -/

structure WritesMember (depth : Nat) (entry : String × String) (member : String × Json) :
    Prop where
  name : entry.1 = member.1
  writes : Writes depth entry.2.toList member.2

def margin (indent : String) : List Char := indent.toList ++ [' ', ' ']

def memberText (entry : String × String) : List Char :=
  (stringLiteral entry.1).toList ++ ':' :: ' ' :: entry.2.toList

theorem toList_block_nil (indent : String) : (block indent []).toList = ['\x7b', '\x7d'] := by
  rw [block, List.isEmpty_nil, if_pos rfl]
  decide

theorem toList_block (indent : String) (entry : String × String) (entries : List (String × String)) :
    (block indent (entry :: entries)).toList =
      '\x7b' :: ('\n' :: margin indent ++ memberText entry ++
        entries.flatMap (fun entry => ',' :: ('\n' :: margin indent ++ memberText entry)) ++
          '\n' :: (indent.toList ++ ['\x7d'])) := by
  simp only [block, List.isEmpty_cons, Bool.false_eq_true, if_false, String.toList_append,
    String.toList_intercalate, List.map_cons, List.map_map, Text.intercalate_cons, margin,
    memberText]
  simp [List.flatMap_map, Function.comp_def]

theorem takes_memberName_memberText (entry : String × String) (rest : List Char) :
    Takes memberName (memberText entry ++ rest) entry.1 (' ' :: (entry.2.toList ++ rest)) := by
  rw [memberText, List.append_assoc]
  exact takes_memberName entry.1 _

theorem skipSpace_memberText_append (entry : String × String) (rest : List Char) :
    skipSpace (memberText entry ++ rest) = memberText entry ++ rest := by
  rw [memberText, List.append_assoc, toList_stringLiteral_append]
  exact skipSpace_cons (by decide) _

theorem WritesMember.takes_value {depth : Nat} {entry : String × String} {member : String × Json}
    (h : WritesMember depth entry member) (rest : List Char) :
    Takes (value depth) (skipSpace (' ' :: (entry.2.toList ++ rest))) member.2 rest := by
  have hblank : ∀ c ∈ [' '], isSpace c = true := by decide
  rw [← List.singleton_append, skipSpace_append_of_space hblank, h.writes.skipSpace_append]
  exact h.writes.takes rest

section Lines

variable {depth : Nat} {breaking closing : List Char}
  (hbreaking : ∀ c ∈ breaking, isSpace c = true) (hclosing : ∀ c ∈ closing, isSpace c = true)

include hbreaking hclosing

/-- The lines of an object are read as its members, up to the closing brace. -/
theorem takes_members_lines {entry : String × String} {member : String × Json}
    {entries : List (String × String)} {found : List (String × Json)} (rest : List Char)
    (hentry : WritesMember depth entry member)
    (hentries : List.Forall₂ (WritesMember depth) entries found) :
    Takes (members (value depth))
      (memberText entry ++ (entries.flatMap (fun entry => ',' :: (breaking ++ memberText entry)) ++
        (closing ++ '\x7d' :: rest))) (member :: found) rest := by
  -- on the entries behind the first: their breaks are skipped up to the mark that opens the name
  induction hentries generalizing entry member with
  | nil =>
      have hclose : skipSpace (closing ++ '\x7d' :: rest) = '\x7d' :: rest := by
        rw [skipSpace_append_of_space hclosing, skipSpace_cons (by decide)]
      have hlast := takes_members_last (takes_memberName_memberText entry _)
        (hentry.takes_value (closing ++ '\x7d' :: rest)) hclose
      rwa [hentry.name] at hlast
  | @cons next member' entries found hnext _ ih =>
      have hmore := ih hnext
      rw [List.flatMap_cons, List.append_assoc, List.cons_append, List.append_assoc]
      generalize entries.flatMap _ ++ (closing ++ _) = more at hmore ⊢
      rw [← skipSpace_memberText_append, ← skipSpace_append_of_space hbreaking] at hmore
      have hcons := takes_members_cons (takes_memberName_memberText entry _)
        (hentry.takes_value (',' :: (breaking ++ (memberText next ++ more))))
        (skipSpace_cons (by decide) _) hmore
      rwa [hentry.name] at hcons

end Lines

theorem isSpace_of_mem_margin {indent : String} (h : ∀ c ∈ indent.toList, isSpace c = true) :
    ∀ c ∈ '\n' :: margin indent, isSpace c = true := by
  intro c hc
  simp only [margin, List.mem_cons, List.mem_append, List.not_mem_nil, or_false] at hc
  rcases hc with rfl | hc | rfl | rfl
  · decide
  · exact h c hc
  · decide
  · decide

/-- An object is written by its members if their names are distinct. -/
theorem writes_block {depth : Nat} {indent : String}
    (hindent : ∀ c ∈ indent.toList, isSpace c = true) {entries : List (String × String)}
    {members : List (String × Json)} (hentries : List.Forall₂ (WritesMember depth) entries members)
    (hnodup : (members.map Prod.fst).Nodup) :
    Writes (depth + 1) (block indent entries).toList (.object members) := by
  cases hentries with
  | nil =>
      rw [toList_block_nil]
      refine ⟨fun rest => skipSpace_cons (by decide) _, fun rest => ?_⟩
      exact takes_value_object (takes_objectTail_nil (skipSpace_cons (by decide) rest))
  | @cons entry member entries members hentry hentries =>
      rw [toList_block]
      refine ⟨fun rest => skipSpace_cons (by decide) _, fun rest => ?_⟩
      rw [List.cons_append]
      apply takes_value_object
      have hbreaking := isSpace_of_mem_margin hindent
      have hclosing : ∀ c ∈ '\n' :: indent.toList, isSpace c = true :=
        List.forall_mem_cons.2 ⟨by decide, hindent⟩
      have hmembers := takes_members_lines hbreaking hclosing rest hentry hentries
      rw [← skipSpace_memberText_append, ← skipSpace_append_of_space hbreaking] at hmembers
      have htail := takes_objectTail hmembers
      rw [Assoc.ofPairs_of_nodup hnodup] at htail
      simpa only [List.append_assoc, List.cons_append, List.nil_append] using htail

theorem head?_block (indent : String) (entries : List (String × String)) :
    (block indent entries).toList.head? = some '\x7b' := by
  cases entries with
  | nil =>
      rw [toList_block_nil]
      rfl
  | cons entry entries =>
      rw [toList_block]
      rfl

/-- A text that writes a value reads as that value. -/
theorem read_of_writes {text : String} {found : Json} (hmark : text.toList.head? ≠ some '\ufeff')
    (h : Writes maxDepth text.toList found) : read text = .ok found := by
  have hskip := h.skipSpace_append []
  have htakes := h.takes []
  rw [← hskip, List.append_nil] at htakes
  obtain ⟨_, htakes⟩ := htakes
  have hdocument : document text.toList = .ok found := by
    unfold document
    split
    · next hhead =>
        rw [hhead] at hmark
        exact absurd rfl hmark
    · simp only [htakes]
      rfl
  rw [read, hdocument]
  rfl

/-! ## Control characters -/

def IsWritten (c : Char) : Prop := c = '\n' ∨ ¬c.toNat < 0x20

instance (c : Char) : Decidable (IsWritten c) := inferInstanceAs (Decidable (_ ∨ _))

theorem isWritten_of_mem_hex {width n : Nat} : ∀ c ∈ Text.hex 'a' width n, IsWritten c := by
  have hdigit : ∀ m < 16, IsWritten (Text.hexDigit 'a' m) := by decide
  induction width generalizing n with
  | zero => exact fun c hc => absurd hc List.not_mem_nil
  | succ width ih =>
      intro c hc
      rcases List.mem_append.1 hc with hc | hc
      · exact ih c hc
      · rw [List.mem_singleton.1 hc]
        exact hdigit _ (Nat.mod_lt n (by decide))

theorem isWritten_of_unescaped? {e c : Char} (h : unescaped? e = some c) : IsWritten e := by
  have hletters : ∀ e ∈ "\"\\/bfnrt".toList, IsWritten e := by decide
  exact hletters e (mem_of_unescaped? h)

theorem isWritten_of_mem_escaped {c : Char} : ∀ d ∈ escaped c, IsWritten d := by
  have hbackslash : IsWritten '\\' := by decide
  rcases escaped_cases c with ⟨e, h, he⟩ | ⟨h, -⟩ | ⟨h, -, -, hcontrol⟩
  · rw [h]
    exact List.forall_mem_cons.2 ⟨hbackslash,
      List.forall_mem_cons.2 ⟨isWritten_of_unescaped? he, fun d hd => absurd hd List.not_mem_nil⟩⟩
  · rw [h]
    exact List.forall_mem_cons.2 ⟨hbackslash,
      List.forall_mem_cons.2 ⟨by decide, isWritten_of_mem_hex⟩⟩
  · rw [h]
    exact List.forall_mem_cons.2 ⟨Or.inr hcontrol, fun d hd => absurd hd List.not_mem_nil⟩

theorem isWritten_of_mem_stringLiteral {text : String} :
    ∀ c ∈ (stringLiteral text).toList, IsWritten c := by
  have hquote : IsWritten '"' := by decide
  intro c hc
  rw [stringLiteral, String.toList_ofList, List.cons_append, List.mem_cons, List.mem_append,
    List.mem_flatMap, List.mem_singleton] at hc
  rcases hc with rfl | ⟨d, -, hd⟩ | rfl
  · exact hquote
  · exact isWritten_of_mem_escaped c hd
  · exact hquote

/-- An object that is written brings no control characters of its own but line breaks. -/
theorem isWritten_of_mem_block {indent : String} {entries : List (String × String)}
    (hindent : ∀ c ∈ indent.toList, IsWritten c)
    (hentries : ∀ entry ∈ entries, ∀ c ∈ entry.2.toList, IsWritten c) :
    ∀ c ∈ (block indent entries).toList, IsWritten c := by
  have hmargin : ∀ c ∈ margin indent, IsWritten c := by
    simp only [margin, List.forall_mem_append, List.forall_mem_cons]
    exact ⟨hindent, by decide, by decide, by simp⟩
  have htext : ∀ entry ∈ entries, ∀ c ∈ memberText entry, IsWritten c := by
    intro entry hentry
    simp only [memberText, List.forall_mem_append, List.forall_mem_cons]
    exact ⟨isWritten_of_mem_stringLiteral, by decide, by decide, hentries entry hentry⟩
  cases entries with
  | nil =>
      rw [toList_block_nil]
      decide
  | cons entry entries =>
      obtain ⟨hfirst, hmore⟩ := List.forall_mem_cons.1 htext
      rw [toList_block]
      simp only [List.forall_mem_cons, List.forall_mem_append]
      refine ⟨by decide, ⟨⟨⟨by decide, hmargin⟩, hfirst⟩, ?_⟩, by decide, hindent, by decide,
        by simp⟩
      intro c hc
      obtain ⟨next, hnext, hc⟩ := List.mem_flatMap.1 hc
      simp only [List.mem_cons, List.mem_append] at hc
      rcases hc with rfl | (rfl | hc) | hc
      · decide
      · decide
      · exact hmargin c hc
      · exact hmore next hnext c hc

end RequestForms.Json
