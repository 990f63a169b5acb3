import RequestForms.Proofs.Yaml.Scalar
import RequestForms.Yaml.Scalar

/-!
# Telling entries apart

An entry ends where a line starts that is not indented below it. So from the code of some entries
and what follows them, the entries can be told one by one.
-/

namespace RequestForms.Yaml

/-! ## Lines that end an entry -/

theorem replicate_space_not_prefix {indent i : Nat} (h : indent < i) {c : Char} (hc : c ≠ ' ')
    (rest : List Char) : ¬List.replicate i ' ' <+: List.replicate indent ' ' ++ c :: rest := by
  obtain ⟨k, rfl⟩ := Nat.exists_eq_add_of_lt h
  rw [Nat.add_assoc, ← List.replicate_append_replicate, List.prefix_append_right_inj,
    List.replicate_succ, List.cons_prefix_cons]
  exact fun hprefix => hc hprefix.1.symm

/-- A line with less indentation ends the text before it. -/
theorem endsPlain_line {indent i : Nat} (h : indent < i) {c : Char} (hc : c ≠ ' ')
    (rest : List Char) :
    endsPlain i ('\n' :: (List.replicate indent ' ' ++ c :: rest)) = true := by
  have hprefix := replicate_space_not_prefix h hc rest
  rw [← List.isPrefixOf_iff_prefix, Bool.not_eq_true] at hprefix
  rw [endsPlain, hprefix]
  rfl

theorem endsPlain_mono {indent i : Nat} (h : indent ≤ i) {rest : List Char}
    (hrest : endsPlain indent rest = true) : endsPlain i rest = true := by
  obtain ⟨k, rfl⟩ := Nat.exists_eq_add_of_le h
  cases rest with
  | nil => rfl
  | cons c rest =>
      simp only [endsPlain, Bool.or_eq_true, Bool.and_eq_true, Bool.not_eq_true',
        ← Bool.not_eq_true, List.isPrefixOf_iff_prefix] at hrest ⊢
      refine hrest.imp_right fun hline => ⟨hline.1, fun hprefix => hline.2 ?_⟩
      rw [← List.replicate_append_replicate] at hprefix
      exact (List.prefix_append _ _).trans hprefix

/-! ## Keys -/

theorem endsPlain_colon {rest : List Char} (h : isSeparated rest = true) (indent : Nat) :
    endsPlain indent (':' :: rest) = true := by
  rw [endsPlain, h]
  rfl

theorem foldsAt_of_isSimpleKey {key : List Char} (h : isSimpleKey key = true) (indent : Nat) :
    FoldsAt indent none key := by
  refine .none (fun hmem => ?_) indent
  simp only [isSimpleKey, Bool.and_eq_true, Bool.not_eq_true', List.any_eq_false] at h
  exact h.2 '\n' hmem (by decide)

theorem keyPart_append_of_isSimpleKey {key : List Char} (h : isSimpleKey key = true) (indent : Nat)
    (rest : List Char) :
    keyPart indent key ++ rest =
      List.replicate indent ' ' ++ (scalar none indent key ++ ':' :: rest) := by
  rw [keyPart, if_pos h, List.append_assoc, List.append_assoc, List.singleton_append]

theorem keyPart_append_of_not_isSimpleKey {key : List Char} (h : isSimpleKey key = false)
    (indent : Nat) (rest : List Char) :
    keyPart indent key ++ rest = List.replicate indent ' ' ++ ('?' :: ' ' ::
      (scalar (some (indent + 2)) (indent + 2) key ++
        '\n' :: (List.replicate indent ' ' ++ ':' :: rest))) := by
  rw [keyPart, h, if_neg Bool.false_ne_true]
  simp only [List.append_assoc, List.cons_append, List.nil_append]

section Key

variable {indent : Nat} (hindent : indent + 2 < width)

include hindent

/-- The line of a key is indented as its entry is. -/
theorem exists_keyPart_append (key rest : List Char) :
    ∃ c code, keyPart indent key ++ rest = List.replicate indent ' ' ++ c :: code ∧ c ≠ ' ' := by
  cases hsimple : isSimpleKey key with
  | true =>
      have hfolds := foldsAt_of_isSimpleKey hsimple (indent + 2)
      obtain ⟨c, code, heq, hspace, -⟩ := exists_cons_scalar hfolds hindent indent
      refine ⟨c, code ++ ':' :: rest, ?_, hspace⟩
      rw [keyPart_append_of_isSimpleKey hsimple, heq]
      rfl
  | false => exact ⟨'?', _, keyPart_append_of_not_isSimpleKey hsimple indent rest, by decide⟩

/-- A key before its colon does not look like one on a line of its own. -/
theorem simpleKey_append_ne {key : List Char} (h : isSimpleKey key = true)
    (rest rest' : List Char) :
    scalar none indent key ++ ':' :: rest ≠ '?' :: ' ' :: rest' := by
  intro heq
  have hfolds := foldsAt_of_isSimpleKey h (indent + 2)
  obtain ⟨c, code, hscalar, -, -, hmark⟩ := exists_cons_scalar hfolds hindent indent
  rw [hscalar, List.cons_append] at heq
  obtain ⟨hc, heq⟩ := List.cons.inj heq
  have hcode := hmark hc
  cases code with
  | nil => cases hcode
  | cons d code =>
      obtain rfl := (List.cons.inj heq).1
      cases hcode

theorem keyPart_append_inj {key key' rest rest' : List Char} (hrest : isSeparated rest = true)
    (hrest' : isSeparated rest' = true)
    (h : keyPart indent key ++ rest = keyPart indent key' ++ rest') :
    key = key' ∧ rest = rest' := by
  have hpositive : 0 < indent + 2 := Nat.succ_pos _
  have hline : ∀ rest, endsPlain (indent + 2)
      ('\n' :: (List.replicate indent ' ' ++ ':' :: rest)) = true :=
    fun rest => endsPlain_line (by omega) (by decide) rest
  cases hkey : isSimpleKey key with
  | true =>
      have hfolds := foldsAt_of_isSimpleKey hkey (indent + 2)
      rw [keyPart_append_of_isSimpleKey hkey] at h
      cases hkey' : isSimpleKey key' with
      | true =>
          have hfolds' := foldsAt_of_isSimpleKey hkey' (indent + 2)
          rw [keyPart_append_of_isSimpleKey hkey', List.append_cancel_left_eq] at h
          obtain ⟨heq, h⟩ := scalar_append_inj hfolds hfolds' hpositive hindent
            (endsPlain_colon hrest _) (endsPlain_colon hrest' _) h
          exact ⟨heq, (List.cons.inj h).2⟩
      | false =>
          rw [keyPart_append_of_not_isSimpleKey hkey', List.append_cancel_left_eq] at h
          exact absurd h (simpleKey_append_ne hindent hkey _ _)
  | false =>
      rw [keyPart_append_of_not_isSimpleKey hkey] at h
      cases hkey' : isSimpleKey key' with
      | true =>
          rw [keyPart_append_of_isSimpleKey hkey', List.append_cancel_left_eq] at h
          exact absurd h.symm (simpleKey_append_ne hindent hkey' _ _)
      | false =>
          rw [keyPart_append_of_not_isSimpleKey hkey', List.append_cancel_left_eq] at h
          obtain ⟨heq, h⟩ := scalar_append_inj (.some _ key) (.some _ key') hpositive hindent
            (hline rest) (hline rest') (List.cons.inj (List.cons.inj h).2).2
          exact ⟨heq, (List.cons.inj (List.append_cancel_left (List.cons.inj h).2)).2⟩

theorem textEntry_append_inj {key key' value value' rest rest' : List Char}
    (hrest : endsPlain (indent + 2) rest = true) (hrest' : endsPlain (indent + 2) rest' = true)
    (h : textEntry indent key value ++ rest = textEntry indent key' value' ++ rest') :
    (key = key' ∧ value = value') ∧ rest = rest' := by
  rw [textEntry, textEntry, List.append_assoc, List.append_assoc] at h
  obtain ⟨hkey, h⟩ := keyPart_append_inj hindent rfl rfl h
  obtain ⟨hvalue, h⟩ := scalar_append_inj (.some _ value) (.some _ value') (Nat.succ_pos _) hindent
    hrest hrest' (List.cons.inj h).2
  exact ⟨⟨hkey, hvalue⟩, h⟩

end Key

/-! ## Groups of entries -/

def entryLines (indent : Nat) (entries : List (String × String)) : List Char :=
  entries.flatMap fun entry => '\n' :: textEntry indent entry.1.toList entry.2.toList

theorem entryLines_cons (indent : Nat) (entry : String × String)
    (entries : List (String × String)) (rest : List Char) :
    entryLines indent (entry :: entries) ++ rest =
      '\n' :: (textEntry indent entry.1.toList entry.2.toList ++
        (entryLines indent entries ++ rest)) := by
  rw [entryLines, List.flatMap_cons, List.append_assoc]
  rfl

section Lines

variable {indent : Nat} (hindent : indent + 2 < width)

include hindent

theorem exists_entryLines_cons_append (entry : String × String) (entries : List (String × String))
    (rest : List Char) :
    ∃ c code, entryLines indent (entry :: entries) ++ rest =
      '\n' :: (List.replicate indent ' ' ++ c :: code) ∧ c ≠ ' ' := by
  rw [entryLines_cons, textEntry, List.append_assoc]
  obtain ⟨c, code, hkey, hc⟩ := exists_keyPart_append hindent entry.1.toList _
  exact ⟨c, code, congrArg ('\n' :: ·) hkey, hc⟩

/-- What ends a group ends its last entry, and the next entry ends the one before it. -/
theorem endsPlain_entryLines_append (entries : List (String × String)) {rest : List Char}
    (hrest : endsPlain indent rest = true) :
    endsPlain (indent + 2) (entryLines indent entries ++ rest) = true := by
  cases entries with
  | nil => exact endsPlain_mono (Nat.le_add_right _ _) hrest
  | cons entry entries =>
      obtain ⟨c, code, heq, hc⟩ := exists_entryLines_cons_append hindent entry entries rest
      rw [heq]
      exact endsPlain_line (by omega) hc code

/-- An entry does not end its group. -/
theorem entryLines_cons_append_ne (entry : String × String) (entries : List (String × String))
    (rest : List Char) {rest' : List Char} (hrest' : endsPlain indent rest' = true) :
    entryLines indent (entry :: entries) ++ rest ≠ rest' := by
  rintro rfl
  obtain ⟨c, code, heq, -⟩ := exists_entryLines_cons_append hindent entry entries rest
  have hprefix : (List.replicate indent ' ').isPrefixOf (List.replicate indent ' ' ++ c :: code) =
      true :=
    List.isPrefixOf_iff_prefix.2 (List.prefix_append _ _)
  rw [heq, endsPlain, hprefix] at hrest'
  cases hrest'

theorem entryLines_append_inj {entries entries' : List (String × String)} {rest rest' : List Char}
    (hrest : endsPlain indent rest = true) (hrest' : endsPlain indent rest' = true)
    (h : entryLines indent entries ++ rest = entryLines indent entries' ++ rest') :
    entries = entries' ∧ rest = rest' := by
  induction entries generalizing entries' with
  | nil =>
      cases entries' with
      | nil => exact ⟨rfl, h⟩
      | cons entry' entries' =>
          exact absurd h.symm (entryLines_cons_append_ne hindent entry' entries' rest' hrest)
  | cons entry entries ih =>
      cases entries' with
      | nil => exact absurd h (entryLines_cons_append_ne hindent entry entries rest hrest')
      | cons entry' entries' =>
          rw [entryLines_cons, entryLines_cons, List.cons.injEq] at h
          obtain ⟨⟨hkey, hvalue⟩, h⟩ := textEntry_append_inj hindent
            (endsPlain_entryLines_append hindent entries hrest)
            (endsPlain_entryLines_append hindent entries' hrest') h.2
          obtain ⟨rfl, hrests⟩ := ih h
          rw [Prod.ext (String.toList_inj.1 hkey) (String.toList_inj.1 hvalue)]
          exact ⟨rfl, hrests⟩

end Lines

end RequestForms.Yaml
