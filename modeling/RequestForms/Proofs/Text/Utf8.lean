import Mathlib.Algebra.Group.Nat.Defs
import Mathlib.Tactic.SplitIfs
import RequestForms.Proofs.Text.Blank
import RequestForms.Text.Utf8

/-!
# Bytes of a text

The bytes of a text are decoded as the text. For every length of a sequence, its first byte asks for
the bytes behind it, and these give back the number of the character, six bits at a time. The line
ends of a text are then its own exactly if there is no carriage return in it.
-/

namespace RequestForms.Text

/-! ## The bytes of a sequence -/

section Lead

variable {n : Nat} (h : n < 0x100)

include h

theorem continuationCount?_ofNat :
    continuationCount? (UInt8.ofNat n) =
      if n < 0x80 then some 0
      else if n < 0xc2 then none
      else if n < 0xe0 then some 1
      else if n < 0xf0 then some 2
      else if n < 0xf5 then some 3
      else none := by
  have hbyte : (UInt8.ofNat n).toNat = n := UInt8.toNat_ofNat_of_lt' h
  simp only [continuationCount?, UInt8.lt_iff_toNat_lt, hbyte]
  rfl

theorem leadBits_ofNat :
    leadBits (UInt8.ofNat n) =
      if n < 0x80 then n
      else if n < 0xe0 then n % 0x20
      else if n < 0xf0 then n % 0x10
      else n % 0x08 := by
  have hbyte : (UInt8.ofNat n).toNat = n := UInt8.toNat_ofNat_of_lt' h
  simp only [leadBits, UInt8.lt_iff_toNat_lt, hbyte]
  rfl

theorem secondRange_ofNat :
    secondRange (UInt8.ofNat n) =
      if n = 0xe0 then (0xa0, 0xbf)
      else if n = 0xed then (0x80, 0x9f)
      else if n = 0xf0 then (0x90, 0xbf)
      else if n = 0xf4 then (0x80, 0x8f)
      else (0x80, 0xbf) := by
  have hbyte : (UInt8.ofNat n).toNat = n := UInt8.toNat_ofNat_of_lt' h
  simp only [secondRange, ← UInt8.toNat_inj, hbyte]
  rfl

end Lead

section Continuation

variable {range : UInt8 × UInt8} {b : Nat} (hb : b < 0x40) (bits seen : Nat) (bytes : List UInt8)

include hb

/-- A byte in its range adds six bits. -/
theorem continuation_succ (hrange : range.1.toNat ≤ b + 0x80 ∧ b + 0x80 ≤ range.2.toNat)
    (count : Nat) :
    continuation (count + 1) range bits seen (UInt8.ofNat (b + 0x80) :: bytes) =
      continuation count (0x80, 0xbf) (bits * 0x40 + b) (seen + 1) bytes := by
  have hbyte : (UInt8.ofNat (b + 0x80)).toNat = b + 0x80 := by
    apply UInt8.toNat_ofNat_of_lt'
    exact Nat.lt_trans (Nat.add_lt_add_right hb 0x80) (by decide)
  have hbits : (b + 0x80) % 0x40 = b := by omega
  have hinside : range.1 ≤ UInt8.ofNat (b + 0x80) ∧ UInt8.ofNat (b + 0x80) ≤ range.2 := by
    simpa only [UInt8.le_iff_toNat_le, hbyte] using hrange
  rw [continuation, if_pos hinside, hbyte, hbits]

theorem continuation_plain (count : Nat) :
    continuation (count + 1) (0x80, 0xbf) bits seen (UInt8.ofNat (b + 0x80) :: bytes) =
      continuation count (0x80, 0xbf) (bits * 0x40 + b) (seen + 1) bytes :=
  continuation_succ hb bits seen bytes
    ⟨Nat.le_add_left _ b, Nat.add_le_add_right (Nat.le_of_lt_succ hb) _⟩ count

end Continuation

/-- The last bytes of a sequence, with six bits of a number each. -/
def tailBytes : (count : Nat) → Nat → List UInt8
  | 0, _ => []
  | count + 1, v => UInt8.ofNat (v / 64 ^ count % 64 + 0x80) :: tailBytes count v

theorem div_pow_succ_mul_add_mod (v count : Nat) :
    v / 64 ^ (count + 1) * 64 + v / 64 ^ count % 64 = v / 64 ^ count := by
  rw [Nat.pow_succ, ← Nat.div_div_eq_div_mul, Nat.div_add_mod']

/-- The last bytes give the bits back that the number has behind its first ones. -/
theorem continuation_tailBytes (count v seen : Nat) (bytes : List UInt8) :
    continuation count (0x80, 0xbf) (v / 64 ^ count) seen (tailBytes count v ++ bytes) =
      .ok (v, bytes) := by
  induction count generalizing seen with
  | zero => rw [continuation, Nat.pow_zero, Nat.div_one, tailBytes, List.nil_append]
  | succ count ih =>
      rw [tailBytes, List.cons_append, continuation_plain (Nat.mod_lt _ (by decide)),
        div_pow_succ_mul_add_mod, ih]

/-! ## Sequences by their length -/

/-- The sequence of a character is decoded first, and then what is behind it. -/
theorem decodeFrom_cons {lead : UInt8} {bytes behind : List UInt8} {count n : Nat}
    (hcount : continuationCount? lead = some count)
    (hbytes : continuation count (secondRange lead) (leadBits lead) 1 bytes = .ok (n, behind))
    (start : Nat) :
    decodeFrom start (lead :: bytes) =
      (decodeFrom (start + 1 + count) behind).map (Char.ofNat n :: ·) := by
  rw [decodeFrom]
  simp only [hcount]
  split
  · next hfault =>
      rw [hbytes] at hfault
      cases hfault
  · next hsome =>
      rw [hbytes] at hsome
      cases hsome
      cases decodeFrom (start + 1 + count) behind <;> rfl

/-- A number with the first byte of its sequence, and how many bytes follow the second one. -/
inductive HasLead (v : Nat) : (count lead : Nat) → Prop
  | two (low : 0x80 ≤ v) (high : v < 0x800) : HasLead v 0 (v / 64 % 32 + 192)
  | three (low : 0x800 ≤ v) (high : v < 0x10000) (surrogate : v < 0xd800 ∨ 0xdfff < v) :
      HasLead v 1 (v / 4096 % 16 + 224)
  | four (low : 0x10000 ≤ v) (high : v < 0x110000) : HasLead v 2 (v / 262144 % 8 + 240)

namespace HasLead

variable {v count lead : Nat} (h : HasLead v count lead)

include h

theorem lead_lt : lead < 0x100 := by
  cases h <;> omega

theorem continuationCount?_eq : continuationCount? (UInt8.ofNat lead) = some (count + 1) := by
  rw [continuationCount?_ofNat h.lead_lt]
  cases h with
  | two => rw [if_neg (by omega), if_neg (by omega), if_pos (by omega)]
  | three => rw [if_neg (by omega), if_neg (by omega), if_neg (by omega), if_pos (by omega)]
  | four =>
      rw [if_neg (by omega), if_neg (by omega), if_neg (by omega), if_neg (by omega),
        if_pos (by omega)]

theorem leadBits_eq : leadBits (UInt8.ofNat lead) = v / 64 ^ (count + 1) := by
  rw [leadBits_ofNat h.lead_lt]
  cases h
  all_goals split_ifs
  all_goals omega

/-- The first byte admits the second one: there is no overlong form, no surrogate and nothing beyond
the last number. -/
theorem second_mem :
    (secondRange (UInt8.ofNat lead)).1.toNat ≤ v / 64 ^ count % 64 + 0x80 ∧
      v / 64 ^ count % 64 + 0x80 ≤ (secondRange (UInt8.ofNat lead)).2.toNat := by
  rw [secondRange_ofNat h.lead_lt]
  cases h
  all_goals split_ifs
  all_goals simp only [UInt8.reduceToNat]
  all_goals omega

theorem decodeFrom_eq (start : Nat) (bytes : List UInt8) :
    decodeFrom start (UInt8.ofNat lead :: (tailBytes (count + 1) v ++ bytes)) =
      (decodeFrom (start + 1 + (count + 1)) bytes).map (Char.ofNat v :: ·) := by
  apply decodeFrom_cons h.continuationCount?_eq
  rw [h.leadBits_eq, tailBytes, List.cons_append,
    continuation_succ (Nat.mod_lt _ (by decide)) _ _ _ h.second_mem, div_pow_succ_mul_add_mod,
    continuation_tailBytes]

end HasLead

theorem decodeFrom_one {v : Nat} (h : v < 0x80) (start : Nat) (bytes : List UInt8) :
    decodeFrom start (UInt8.ofNat v :: bytes) =
      (decodeFrom (start + 1) bytes).map (Char.ofNat v :: ·) := by
  have hbyte : v < 0x100 := by omega
  have hcount : continuationCount? (UInt8.ofNat v) = some 0 := by
    rw [continuationCount?_ofNat hbyte, if_pos h]
  have hbits : leadBits (UInt8.ofNat v) = v := by rw [leadBits_ofNat hbyte, if_pos h]
  apply decodeFrom_cons hcount
  rw [continuation, hbits]

/-! ## Texts -/

theorem decodeFrom_utf8EncodeChar_append (c : Char) (bytes : List UInt8) (start : Nat) :
    ∃ next, decodeFrom start (String.utf8EncodeChar c ++ bytes) =
      (decodeFrom next bytes).map (c :: ·) := by
  have hvalid : c.val.toNat < 0xd800 ∨ 0xdfff < c.val.toNat ∧ c.val.toNat < 0x110000 := c.valid
  have hchar : Char.ofNat c.val.toNat = c := Char.ofNat_toNat c
  unfold String.utf8EncodeChar
  dsimp only
  generalize c.val.toNat = v at hvalid hchar
  rw [← hchar]
  have hone : tailBytes 1 v = [UInt8.ofNat (v % 64 + 128)] := by
    rw [tailBytes, tailBytes, Nat.pow_zero, Nat.div_one]
  have htwo : tailBytes 2 v = UInt8.ofNat (v / 64 % 64 + 128) :: tailBytes 1 v := rfl
  have hthree : tailBytes 3 v = UInt8.ofNat (v / 4096 % 64 + 128) :: tailBytes 2 v := rfl
  split
  · exact ⟨_, decodeFrom_one (by omega) start bytes⟩
  split
  · rw [← hone]
    exact ⟨_, (HasLead.two (by omega) (by omega)).decodeFrom_eq start bytes⟩
  split
  · rw [← hone, ← htwo]
    exact ⟨_, (HasLead.three (by omega) (by omega) (by omega)).decodeFrom_eq start bytes⟩
  · rw [← hone, ← htwo, ← hthree]
    exact ⟨_, (HasLead.four (by omega) (by omega)).decodeFrom_eq start bytes⟩

theorem decodeFrom_flatMap_utf8EncodeChar (s : List Char) (start : Nat) :
    decodeFrom start (s.flatMap String.utf8EncodeChar) = .ok s := by
  induction s generalizing start with
  | nil => rw [List.flatMap_nil, decodeFrom]
  | cons c s ih =>
      obtain ⟨next, hnext⟩ := decodeFrom_utf8EncodeChar_append c
        (s.flatMap String.utf8EncodeChar) start
      rw [List.flatMap_cons, hnext, ih]
      rfl

/-- The bytes of a text are decoded as the text. -/
theorem decode_toUTF8 (text : String) : decode text.toUTF8.data.toList = .ok text.toList := by
  have hbytes : text.toUTF8.data.toList = text.toList.flatMap String.utf8EncodeChar := by
    rw [String.toUTF8, ← String.utf8Encode_toList, List.utf8Encode, List.data_toByteArray]
  rw [decode, hbytes, decodeFrom_flatMap_utf8EncodeChar]

/-! ## Line ends -/

theorem unifyLineEnds_cons {c : Char} (h : c ≠ '\r') (rest : List Char) :
    unifyLineEnds (c :: rest) = c :: unifyLineEnds rest := by
  rw [unifyLineEnds]
  · rintro tail rfl
    exact absurd rfl h
  · rintro rfl
    exact absurd rfl h

/-- A carriage return is a line end by itself if no line feed follows. -/
theorem unifyLineEnds_return {rest : List Char} (h : rest.head? ≠ some '\n') :
    unifyLineEnds ('\r' :: rest) = '\n' :: unifyLineEnds rest := by
  rw [unifyLineEnds]
  rintro tail rfl
  exact h rfl

theorem return_not_mem_unifyLineEnds (s : List Char) : '\r' ∉ unifyLineEnds s := by
  induction s using unifyLineEnds.induct with
  | case1 rest ih =>
      rw [unifyLineEnds, List.mem_cons, not_or]
      exact ⟨by decide, ih⟩
  | case2 rest hrest ih =>
      rw [unifyLineEnds_return fun h => (List.head?_eq_some_iff.1 h).elim hrest, List.mem_cons,
        not_or]
      exact ⟨by decide, ih⟩
  | case3 c rest _ hc ih =>
      rw [unifyLineEnds_cons hc, List.mem_cons, not_or]
      exact ⟨fun h => hc h.symm, ih⟩
  | case4 => exact List.not_mem_nil

theorem unifyLineEnds_eq_self_iff {s : List Char} : unifyLineEnds s = s ↔ '\r' ∉ s := by
  refine ⟨fun h => h ▸ return_not_mem_unifyLineEnds s, fun h => ?_⟩
  induction s with
  | nil => rfl
  | cons c s ih =>
      rw [unifyLineEnds_cons (List.ne_of_not_mem_cons h).symm,
        ih (List.not_mem_of_not_mem_cons h)]

/-- A last character that belongs to no line end stays the last. -/
theorem unifyLineEnds_concat {c : Char} (hreturn : c ≠ '\r') (hbreak : c ≠ '\n') (s : List Char) :
    unifyLineEnds (s ++ [c]) = unifyLineEnds s ++ [c] := by
  induction s using unifyLineEnds.induct with
  | case1 rest ih =>
      rw [List.cons_append, List.cons_append, unifyLineEnds, unifyLineEnds, ih, List.cons_append]
  | case2 rest hrest ih =>
      have hhead : rest.head? ≠ some '\n' := fun h => (List.head?_eq_some_iff.1 h).elim hrest
      have hhead' : (rest ++ [c]).head? ≠ some '\n' := by
        cases rest with
        | nil => simpa using hbreak
        | cons d rest => exact hhead
      rw [List.cons_append, unifyLineEnds_return hhead', unifyLineEnds_return hhead, ih,
        List.cons_append]
  | case3 d rest _ hd ih =>
      rw [List.cons_append, unifyLineEnds_cons hd, unifyLineEnds_cons hd, ih, List.cons_append]
  | case4 =>
      rw [List.nil_append, unifyLineEnds_cons hreturn]
      rfl

theorem ne_lineEnd_of_not_blank {c : Char} (h : isBlank c = false) : c ≠ '\r' ∧ c ≠ '\n' := by
  constructor
  · rintro rfl
    exact absurd h (by decide)
  · rintro rfl
    exact absurd h (by decide)

/-- A text that is not blank at its ends keeps them. -/
theorem head?_unifyLineEnds {s : List Char} (h : strip s = s) :
    (unifyLineEnds s).head? = s.head? := by
  cases s with
  | nil => rfl
  | cons c rest =>
      rw [unifyLineEnds_cons (ne_lineEnd_of_not_blank ((strip_eq_self_iff.1 h).1 c rfl)).1]
      rfl

theorem getLast?_unifyLineEnds {s : List Char} (h : strip s = s) :
    (unifyLineEnds s).getLast? = s.getLast? := by
  rcases s.eq_nil_or_concat with rfl | ⟨front, c, hs⟩
  · rfl
  · obtain rfl : s = front ++ [c] := hs.trans List.concat_eq_append
    obtain ⟨hreturn, hbreak⟩ :=
      ne_lineEnd_of_not_blank ((strip_eq_self_iff.1 h).2 c List.getLast?_concat)
    rw [unifyLineEnds_concat hreturn hbreak, List.getLast?_concat, List.getLast?_concat]

theorem strip_unifyLineEnds {s : List Char} (h : strip s = s) :
    strip (unifyLineEnds s) = unifyLineEnds s := by
  rw [strip_eq_self_iff, head?_unifyLineEnds h, getLast?_unifyLineEnds h]
  exact strip_eq_self_iff.1 h

end RequestForms.Text
