import RequestForms.Text.Quoted

/-!
# Text from bytes

Strict decoding: no overlong form, no surrogate and nothing beyond the last code point. A fault is
reported with the bytes of the sequence that were still right.
-/

namespace RequestForms.Text

inductive DecodeReason where
  | invalidStart
  | invalidContinuation
  | unexpectedEnd
deriving DecidableEq, Repr

/-- A byte sequence that is no character: its first byte, its place and its length. -/
structure DecodeFault where
  reason : DecodeReason
  first : UInt8
  start : Nat
  length : Nat
deriving DecidableEq, Repr

def DecodeReason.message : DecodeReason → String
  | .invalidStart => "invalid start byte"
  | .invalidContinuation => "invalid continuation byte"
  | .unexpectedEnd => "unexpected end of data"

def DecodeFault.message (fault : DecodeFault) : String :=
  let byte := String.ofList (hex 'a' 2 fault.first.toNat)
  let place :=
    if fault.length = 1 then s!"byte 0x{byte} in position {fault.start}"
    else s!"bytes in position {fault.start}-{fault.start + fault.length - 1}"
  s!"'utf-8' codec can't decode {place}: {fault.reason.message}"

def secondRange (lead : UInt8) : UInt8 × UInt8 :=
  if lead = 0xe0 then (0xa0, 0xbf)
  else if lead = 0xed then (0x80, 0x9f)
  else if lead = 0xf0 then (0x90, 0xbf)
  else if lead = 0xf4 then (0x80, 0x8f)
  else (0x80, 0xbf)

/-- The continuation bytes that a leading byte asks for. None for a byte that cannot lead. -/
def continuationCount? (lead : UInt8) : Option Nat :=
  if lead < 0x80 then some 0
  else if lead < 0xc2 then none
  else if lead < 0xe0 then some 1
  else if lead < 0xf0 then some 2
  else if lead < 0xf5 then some 3
  else none

def leadBits (lead : UInt8) : Nat :=
  if lead < 0x80 then lead.toNat
  else if lead < 0xe0 then lead.toNat % 0x20
  else if lead < 0xf0 then lead.toNat % 0x10
  else lead.toNat % 0x08

/-- Reads continuation bytes, the first of them from a range. A fault counts the bytes that were
right. -/
def continuation : (count : Nat) → (range : UInt8 × UInt8) → (bits seen : Nat) → List UInt8 →
    Except (DecodeReason × Nat) (Nat × List UInt8)
  | 0, _, bits, _, bytes => .ok (bits, bytes)
  | _ + 1, _, _, seen, [] => .error (.unexpectedEnd, seen)
  | count + 1, range, bits, seen, b :: rest =>
      if range.1 ≤ b ∧ b ≤ range.2 then
        continuation count (0x80, 0xbf) (bits * 0x40 + b.toNat % 0x40) (seen + 1) rest
      else .error (.invalidContinuation, seen)

theorem length_of_continuation {count bits seen n : Nat} {range : UInt8 × UInt8}
    {bytes rest : List UInt8} (h : continuation count range bits seen bytes = .ok (n, rest)) :
    rest.length ≤ bytes.length := by
  induction count generalizing range bits seen bytes with
  | zero =>
      simp only [continuation, Except.ok.injEq, Prod.mk.injEq] at h
      simp [h.2]
  | succ count ih =>
      cases bytes with
      | nil => simp [continuation] at h
      | cons b tail =>
          rw [continuation] at h
          split at h
          · have := ih h
            simp only [List.length_cons]
            omega
          · simp at h

def decodeFrom (start : Nat) (bytes : List UInt8) : Except DecodeFault (List Char) :=
  match bytes with
  | [] => .ok []
  | lead :: rest =>
      match continuationCount? lead with
      | none => .error ⟨.invalidStart, lead, start, 1⟩
      | some count =>
          match h : continuation count (secondRange lead) (leadBits lead) 1 rest with
          | .error (reason, seen) => .error ⟨reason, lead, start, seen⟩
          | .ok (n, behind) =>
              have := length_of_continuation h
              match decodeFrom (start + 1 + count) behind with
              | .error fault => .error fault
              | .ok cs => .ok (Char.ofNat n :: cs)
termination_by bytes.length

def decode (bytes : List UInt8) : Except DecodeFault (List Char) := decodeFrom 0 bytes

/-- A text whose lines all end in a line feed. -/
def unifyLineEnds : List Char → List Char
  | '\r' :: '\n' :: rest => '\n' :: unifyLineEnds rest
  | '\r' :: rest => '\n' :: unifyLineEnds rest
  | c :: rest => c :: unifyLineEnds rest
  | [] => []

end RequestForms.Text
