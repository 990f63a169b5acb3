import Mathlib.Algebra.Ring.Nat
import RequestForms.Json.Reader.Quoted
import RequestForms.Yaml.Scalar

/-!
# Texts in double quotes

Between double quotes a character is written as itself or as an escape, and a line may be continued
behind a backslash. Each escape says what it stands for and where it ends, so that the text can be
told from the code wherever its lines are continued.
-/

namespace RequestForms

/-! ## Hexadecimal digits -/

namespace Text

def ofHex (digits : List Char) : Nat :=
  digits.foldl (fun n digit => n * 16 + (Json.hexValue? digit).getD 0) 0

theorem hexValue?_hexDigit_capital : ∀ n < 16, Json.hexValue? (hexDigit 'A' n) = some n := by
  decide

theorem ofHex_hex {width n : Nat} (h : n < 16 ^ width) : ofHex (hex 'A' width n) = n := by
  induction width generalizing n with
  | zero =>
      rw [Nat.pow_zero, Nat.lt_one_iff] at h
      rw [h]
      rfl
  | succ width ih =>
      have hdiv : n / 16 < 16 ^ width := by
        rw [Nat.div_lt_iff_lt_mul (by decide), ← Nat.pow_succ]
        exact h
      have hdigit := hexValue?_hexDigit_capital (n % 16) (Nat.mod_lt n (by decide))
      have hlast : ofHex (hex 'A' (width + 1) n) = ofHex (hex 'A' width (n / 16)) * 16 + n % 16 := by
        rw [ofHex, hex, List.foldl_append, List.foldl_cons, List.foldl_nil, hdigit]
        rfl
      rw [hlast, ih hdiv]
      omega

end Text

namespace Yaml

/-! ## Escapes -/

def escapeDigits (letter : Char) : Nat :=
  if letter = 'x' then 2 else if letter = 'u' then 4 else if letter = 'U' then 8 else 0

/-- The character that an escape stands for. A letter that means nothing stands for itself. -/
def unescapedChar (letter : Char) (digits : List Char) : Char :=
  if escapeDigits letter = 0 then
    ((escapeLetters.find? fun entry => entry.2 = letter).map Prod.fst).getD letter
  else Char.ofNat (Text.ofHex digits)

def IsEscape (c : Char) (escape : List Char) : Prop :=
  ∃ letter digits, escape = '\\' :: letter :: digits ∧ letter ≠ '\n' ∧
    digits.length = escapeDigits letter ∧ unescapedChar letter digits = c

theorem isEscape_of_mem_escapeLetters : ∀ entry ∈ escapeLetters,
    entry.2 ≠ '\n' ∧ 0 = escapeDigits entry.2 ∧ unescapedChar entry.2 [] = entry.1 := by
  decide

theorem isEscape_digits {letter c : Char} (hletter : letter ≠ '\n')
    (hdigits : escapeDigits letter ≠ 0) (h : c.toNat < 16 ^ escapeDigits letter) :
    IsEscape c ('\\' :: letter :: Text.hex 'A' (escapeDigits letter) c.toNat) := by
  refine ⟨letter, _, rfl, hletter, Text.length_hex _ _ _, ?_⟩
  rw [unescapedChar, if_neg hdigits, Text.ofHex_hex h, Char.ofNat_toNat]

theorem isEscape_codePointEscape (c : Char) : IsEscape c (Text.codePointEscape 'A' c) := by
  have hmax : c.toNat < 16 ^ 8 := Nat.lt_of_lt_of_eq c.val.toNat_lt (by decide)
  unfold Text.codePointEscape
  dsimp only
  split
  · next h => exact isEscape_digits (by decide) (by decide) h
  split
  · next h => exact isEscape_digits (by decide) (by decide) h
  · exact isEscape_digits (by decide) (by decide) hmax

theorem isEscape_of_escape? {c : Char} {escape : List Char} (h : escape? c = some escape) :
    IsEscape c escape := by
  unfold escape? at h
  split at h
  · next letter hletter =>
      obtain ⟨before, behind, happ, -⟩ := List.lookup_eq_some_iff.1 hletter
      have hmem : (c, letter) ∈ escapeLetters := by
        rw [happ]
        exact List.mem_append_right before List.mem_cons_self
      obtain ⟨hbreak, hdigits, hvalue⟩ := isEscape_of_mem_escapeLetters _ hmem
      obtain rfl := Option.some.inj h
      exact ⟨letter, [], rfl, hbreak, hdigits, hvalue⟩
  · split at h
    · cases h
    · obtain rfl := Option.some.inj h
      exact isEscape_codePointEscape c

/-- What is written as itself neither ends the text nor starts an escape. -/
theorem ne_of_escape?_eq_none {c : Char} (h : escape? c = none) : c ≠ '"' ∧ c ≠ '\\' := by
  constructor <;>
    rintro rfl <;>
    exact absurd h (by decide)

/-! ## Code between double quotes -/

/-- A space at the start of a continued line has a backslash before it. -/
def guarded (code : List Char) : List Char := spaceGuard code ++ code

/-- Code that a text may be written as between double quotes, the later lines with an
indentation. -/
inductive Escapes (indent : Nat) : List Char → List Char → Prop
  | nil : Escapes indent [] []
  | char {c : Char} {s code : List Char} (hc : escape? c = none) (h : Escapes indent s code) :
      Escapes indent (c :: s) (c :: code)
  | escape {c : Char} {s escape code : List Char} (hc : escape? c = some escape)
      (h : Escapes indent s code) : Escapes indent (c :: s) (escape ++ code)
  | continued {s code : List Char} (h : Escapes indent s code) :
      Escapes indent s ('\\' :: (newLine indent ++ guarded code))

/-- The text that code between double quotes stands for, with what follows the closing quote. -/
def unescaped (indent : Nat) : List Char → Option (List Char × List Char)
  | [] => none
  | '\\' :: [] => none
  | '\\' :: letter :: rest =>
      if letter = '\n' then unescaped indent (rest.drop indent)
      else
        let digits := escapeDigits letter
        (unescaped indent (rest.drop digits)).map fun found =>
          (unescapedChar letter (rest.take digits) :: found.1, found.2)
  | c :: rest =>
      if c = '"' then some ([], rest)
      else (unescaped indent rest).map fun found => (c :: found.1, found.2)
termination_by code => code.length

theorem unescaped_cons {c : Char} (hquote : c ≠ '"') (hescape : c ≠ '\\') (indent : Nat)
    (rest : List Char) :
    unescaped indent (c :: rest) =
      (unescaped indent rest).map fun found => (c :: found.1, found.2) := by
  rw [unescaped, if_neg hquote]
  · exact fun h _ => hescape h
  · exact fun _ _ h _ => hescape h

theorem unescaped_escape {c : Char} {escape : List Char} (h : IsEscape c escape) (indent : Nat)
    (rest : List Char) :
    unescaped indent (escape ++ rest) =
      (unescaped indent rest).map fun found => (c :: found.1, found.2) := by
  obtain ⟨letter, digits, rfl, hbreak, hlength, rfl⟩ := h
  rw [List.cons_append, List.cons_append, unescaped, if_neg hbreak]
  simp only [← hlength, List.drop_left, List.take_left]

/-- The backslash before a space changes nothing. -/
theorem unescaped_guarded (indent : Nat) (code rest : List Char) :
    unescaped indent (guarded code ++ rest) = unescaped indent (code ++ rest) := by
  unfold guarded spaceGuard
  split
  · next h =>
      obtain ⟨code, rfl⟩ := List.head?_eq_some_iff.1 h
      have hspace : IsEscape ' ' ['\\', ' '] := ⟨' ', [], rfl, by decide, by decide, by decide⟩
      have hescaped := unescaped_escape hspace indent (code ++ rest)
      have hself : unescaped indent (' ' :: code ++ rest) =
          (unescaped indent (code ++ rest)).map fun found => (' ' :: found.1, found.2) :=
        unescaped_cons (by decide) (by decide) indent (code ++ rest)
      rw [hself, ← hescaped]
      rfl
  · rfl

theorem unescaped_newLine (indent : Nat) (rest : List Char) :
    unescaped indent ('\\' :: (newLine indent ++ rest)) = unescaped indent rest := by
  rw [newLine, List.cons_append, unescaped, if_pos rfl, List.drop_left' List.length_replicate]

/-- A text comes back from its code, up to the closing quote. -/
theorem Escapes.unescaped_append {indent : Nat} {s code : List Char} (h : Escapes indent s code)
    (rest : List Char) : unescaped indent (code ++ '"' :: rest) = some (s, rest) := by
  induction h with
  | nil =>
      rw [List.nil_append, unescaped, if_pos rfl]
      · exact fun h => absurd h (by decide)
      · exact fun _ _ h => absurd h (by decide)
  | char hc _ ih =>
      obtain ⟨hquote, hescape⟩ := ne_of_escape?_eq_none hc
      rw [List.cons_append, unescaped_cons hquote hescape, ih]
      rfl
  | escape hc _ ih =>
      rw [List.append_assoc, unescaped_escape (isEscape_of_escape? hc), ih]
      rfl
  | continued _ ih =>
      rw [List.cons_append, List.append_assoc, unescaped_newLine, unescaped_guarded, ih]

/-! ## What is written -/

/-- At the start of a continued line a space is written as itself. -/
theorem spaceGuard_escaped {column : Nat} (hcolumn : column ≤ width) (folding : Folding)
    (afterEscape : Bool) (s : List Char) :
    spaceGuard (escaped folding false afterEscape column s) = spaceGuard s := by
  have hroom : ¬width < column := Nat.not_lt.2 hcolumn
  have hhead : ∀ {c : Char} {escape code : List Char}, escape? c = some escape →
      spaceGuard (escape ++ code) = spaceGuard (c :: s) := by
    intro c escape code hc
    obtain ⟨letter, digits, rfl, -⟩ := isEscape_of_escape? hc
    have hspace : c ≠ ' ' := by
      rintro rfl
      have hvisible : escape? ' ' = none := by decide
      rw [hvisible] at hc
      cases hc
    have hnone : spaceGuard (c :: s) = [] := if_neg (by simpa using hspace)
    rw [hnone]
    rfl
  cases s with
  | nil => rw [escaped]
  | cons c s =>
      unfold escaped
      dsimp only
      split
      · next hc => exact hhead hc
      · next hc =>
          split
          · rw [List.append_assoc]
            exact hhead hc
          · exact hhead hc
      · rfl
      · rw [if_neg fun h => hroom h.2.2]
        rfl

theorem escapes_escaped {folding : Folding} {indent : Nat} (hindent : indent < width)
    (hfolding : ∀ i ∈ folding, i = indent) (atStart afterEscape : Bool) (column : Nat) (s : List Char) :
    Escapes indent s (escaped folding atStart afterEscape column s) := by
  have hroom : ∀ s, indent + (spaceGuard s).length ≤ width := by
    intro s
    unfold spaceGuard
    split
    · exact hindent
    · exact Nat.le_of_lt hindent
  induction s generalizing atStart afterEscape column with
  | nil =>
      rw [escaped]
      exact .nil
  | cons c s ih =>
      unfold escaped
      dsimp only
      split
      · next hc => exact .escape hc (ih _ _ _)
      · next escape i hc =>
          obtain rfl := hfolding i rfl
          split
          · have hcode := ih false true (i + (spaceGuard s).length)
            have hguard := spaceGuard_escaped (hroom s) (some i) true s
            have hcontinued := Escapes.escape hc (.continued hcode)
            rw [guarded, hguard] at hcontinued
            simpa [continuation] using hcontinued
          · exact .escape hc (ih _ _ _)
      · next hc => exact .char hc (ih _ _ _)
      · next i hc =>
          obtain rfl := hfolding i rfl
          split
          · have hcode := ih false false (i + (spaceGuard (c :: s)).length + 1)
            have hguard : ∀ code, spaceGuard (c :: code) = spaceGuard (c :: s) := fun _ => rfl
            have hcontinued := Escapes.continued (.char hc hcode)
            rw [guarded, hguard] at hcontinued
            simpa [continuation] using hcontinued
          · exact .char hc (ih _ _ _)

end Yaml

end RequestForms
