import RequestForms.Json.Basic
import RequestForms.Json.Reader.Basic

/-!
# JSON numbers

A number ends where no longer one can be read. It is whole if it has neither a fraction nor an
exponent, and a double otherwise.
-/

namespace RequestForms.Json

structure Numeral where
  negative : Bool
  whole : List Char
  fraction : List Char
  exponent : Option Int
deriving DecidableEq

def ofDigits (digits : List Char) : Nat :=
  digits.foldl (fun n c => n * 10 + (c.toNat - 48)) 0

/-- The digits before the point: a zero, or digits that start with another one. -/
def wholePart? : List Char → Option (List Char × List Char)
  | '0' :: rest => some (['0'], rest)
  | c :: rest =>
      if c.isDigit then some (c :: rest.takeWhile Char.isDigit, rest.dropWhile Char.isDigit)
      else none
  | [] => none

/-- The digits behind a point, none if there are none. -/
def fractionPart : List Char → List Char × List Char
  | '.' :: c :: rest =>
      if c.isDigit then (c :: rest.takeWhile Char.isDigit, rest.dropWhile Char.isDigit)
      else ([], '.' :: c :: rest)
  | text => ([], text)

def exponentDigits? (negative : Bool) : List Char → Option (Int × List Char)
  | c :: rest =>
      if c.isDigit then
        let n : Int := ofDigits (c :: rest.takeWhile Char.isDigit)
        some (if negative then -n else n, rest.dropWhile Char.isDigit)
      else none
  | [] => none

def exponentPart? : List Char → Option (Int × List Char)
  | e :: rest =>
      if e = 'e' ∨ e = 'E' then
        match rest with
        | '-' :: rest => exponentDigits? true rest
        | '+' :: rest => exponentDigits? false rest
        | rest => exponentDigits? false rest
      else none
  | [] => none

def unsignedNumeral? (negative : Bool) (text : List Char) : Option (Numeral × List Char) :=
  match wholePart? text with
  | none => none
  | some (whole, rest) =>
      let (fraction, rest) := fractionPart rest
      match exponentPart? rest with
      | none => some (⟨negative, whole, fraction, none⟩, rest)
      | some (exponent, rest) => some (⟨negative, whole, fraction, some exponent⟩, rest)

def numeral? : List Char → Option (Numeral × List Char)
  | '-' :: rest => unsignedNumeral? true rest
  | text => unsignedNumeral? false text

theorem length_of_wholePart? {text digits rest : List Char}
    (h : wholePart? text = some (digits, rest)) : rest.length < text.length := by
  unfold wholePart? at h
  split at h
  · simp_all
  · next c tail _ =>
      split at h
      · simp only [Option.some.injEq, Prod.mk.injEq] at h
        obtain ⟨-, rfl⟩ := h
        have := (List.dropWhile_sublist Char.isDigit (l := tail)).length_le
        simp only [List.length_cons]
        omega
      · simp at h
  · simp at h

theorem length_fractionPart_le (text : List Char) :
    (fractionPart text).2.length ≤ text.length := by
  unfold fractionPart
  split
  · next c rest =>
      split
      · have := (List.dropWhile_sublist Char.isDigit (l := rest)).length_le
        simp only [List.length_cons]
        omega
      · exact Nat.le_refl _
  · exact Nat.le_refl _

theorem length_of_exponentDigits? {negative : Bool} {text rest : List Char} {n : Int}
    (h : exponentDigits? negative text = some (n, rest)) : rest.length < text.length := by
  unfold exponentDigits? at h
  split at h
  · next c tail =>
      split at h
      · simp only [Option.some.injEq, Prod.mk.injEq] at h
        obtain ⟨-, rfl⟩ := h
        have := (List.dropWhile_sublist Char.isDigit (l := tail)).length_le
        simp only [List.length_cons]
        omega
      · simp at h
  · simp at h

theorem length_of_exponentPart? {text rest : List Char} {n : Int}
    (h : exponentPart? text = some (n, rest)) : rest.length < text.length := by
  unfold exponentPart? at h
  split at h
  · split at h
    · split at h
      all_goals
        have := length_of_exponentDigits? h
        simp only [List.length_cons] at *
        omega
    · simp at h
  · simp at h

theorem length_of_unsignedNumeral? {negative : Bool} {text rest : List Char} {n : Numeral}
    (h : unsignedNumeral? negative text = some (n, rest)) : rest.length < text.length := by
  unfold unsignedNumeral? at h
  split at h
  · simp at h
  · next whole behind hw =>
      have hwl := length_of_wholePart? hw
      have hfl := length_fractionPart_le behind
      simp only at h
      split at h
      · simp only [Option.some.injEq, Prod.mk.injEq] at h
        obtain ⟨-, rfl⟩ := h
        omega
      · next e tail he =>
          have hel := length_of_exponentPart? he
          simp only [Option.some.injEq, Prod.mk.injEq] at h
          obtain ⟨-, rfl⟩ := h
          omega

theorem length_of_numeral? {text rest : List Char} {n : Numeral}
    (h : numeral? text = some (n, rest)) : rest.length < text.length := by
  unfold numeral? at h
  split at h
  · have := length_of_unsignedNumeral? h
    simp only [List.length_cons]
    omega
  · exact length_of_unsignedNumeral? h

/-- The value of a number: whole without a fraction and an exponent, and otherwise a double. -/
def Numeral.value (n : Numeral) : Except Stop Json :=
  if n.fraction = [] ∧ n.exponent = none then
    if maxDigits < n.whole.length then .error (.integerTooLong n.whole.length)
    else
      let magnitude : Int := ofDigits n.whole
      .ok (.int (if n.negative then -magnitude else magnitude))
  else
    .ok (.double (Double.ofDecimal n.negative (ofDigits (n.whole ++ n.fraction))
      (n.exponent.getD 0 - n.fraction.length)))

end RequestForms.Json
