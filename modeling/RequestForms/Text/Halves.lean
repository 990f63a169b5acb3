import RequestForms.Text.Quoted

/-!
# Halves of pairs

Where characters are written as pairs of units, half a pair can stand alone. It is no character, and
no encoding has a place for it. So a text that may hold halves is given twice, with other private
characters in their places each time: where the two differ, half a pair is meant.
-/

namespace RequestForms

variable {α β ε : Type}

/-- What is given twice, the same but for the characters in the places of halves. -/
structure Twofold (α : Type) where
  first : α
  second : α
deriving DecidableEq

namespace Twofold

def same (x : α) : Twofold α := ⟨x, x⟩

def map (f : α → β) (x : Twofold α) : Twofold β := ⟨f x.first, f x.second⟩

@[simp] theorem map_same (f : α → β) (x : α) : (same x).map f = same (f x) := rfl

/-! Of what is put together from parts, the first giving says which parts there are. The second one
has the same ones, and only their characters count. -/

def ofOptions : Option α → Option α → Option (Twofold α)
  | none, _ => none
  | some x, y => some ⟨x, y.getD x⟩

def ofLists : List α → List α → List (Twofold α)
  | [], _ => []
  | x :: xs, ys => ⟨x, ys.head?.getD x⟩ :: ofLists xs ys.tail

def ofResults : Except ε α → Except ε α → Except (Twofold ε) (Twofold α)
  | .error fault, .error other => .error ⟨fault, other⟩
  | .error fault, .ok _ => .error (same fault)
  | .ok x, .ok y => .ok ⟨x, y⟩
  | .ok x, .error _ => .ok (same x)

@[simp] theorem ofLists_self (xs : List α) : ofLists xs xs = xs.map same := by
  induction xs with
  | nil => rfl
  | cons x xs ih => exact congrArg (same x :: ·) ih

theorem ofResults_self (x : Except ε α) : ofResults x x = (x.map same).mapError same := by
  cases x <;> rfl

theorem eq_ok_of_ofResults {x y : Except ε α} {z : Twofold α} (h : ofResults x y = .ok z) :
    x = .ok z.first := by
  cases x <;> cases y <;> cases h <;> rfl

theorem exists_ofResults_eq_error_iff {x y : Except ε α} :
    (∃ fault, ofResults x y = .error fault) ↔ ∃ fault, x = .error fault := by
  cases x <;> cases y <;> simp [ofResults]

@[simp] theorem map_first_ofLists (xs ys : List α) : (ofLists xs ys).map first = xs := by
  induction xs generalizing ys with
  | nil => rfl
  | cons x xs ih => exact congrArg (x :: ·) (ih ys.tail)

end Twofold

namespace Text

/-- The private characters in the place of half a pair. Two names of members count as one if one has
a half where the other has the first of these characters. -/
def standIn (half : Nat) : Twofold Char := ⟨Char.ofNat (half + 0x1000), Char.ofNat (half + 0x1800)⟩

inductive Symbol where
  | char (c : Char)
  | half (unit : Nat)
deriving DecidableEq, Repr

/-- What two characters at the same place of a text mean. They also differ where stand-ins are
escaped: the number of the half has another first digit than both, and the others from the first. -/
def Symbol.ofChars (c : Twofold Char) : Symbol :=
  if c.first = c.second then .char c.first
  else if 0xe800 ≤ c.first.toNat ∧ c.first.toNat < 0xf000 then .half (c.first.toNat - 0x1000)
  else if c = ⟨'e', 'f'⟩ then .char 'd'
  else if c = ⟨'E', 'F'⟩ then .char 'D'
  else .char c.first

def symbols (text : Twofold String) : List Symbol :=
  (Twofold.ofLists text.first.toList text.second.toList).map Symbol.ofChars

theorem symbols_same (text : String) : symbols (.same text) = text.toList.map .char := by
  simp only [symbols, Twofold.same, Twofold.ofLists_self, List.map_map]
  exact List.map_congr_left fun c _ => if_pos rfl

/-- The first halves in a text that stand together, with what is before them. -/
structure EncodeFault where
  before : List Char
  half : Nat
  more : Nat
deriving DecidableEq, Repr

def EncodeFault.message (fault : EncodeFault) : String :=
  let start := fault.before.length
  let place :=
    if fault.more = 0 then
      "character '\\u" ++ String.ofList (hex 'a' 4 fault.half) ++ s!"' in position {start}"
    else s!"characters in position {start}-{start + fault.more}"
  "'utf-8' codec can't encode " ++ place ++ ": surrogates not allowed"

def encode : List Symbol → Except EncodeFault (List Char)
  | [] => .ok []
  | .char c :: rest =>
      match encode rest with
      | .ok cs => .ok (c :: cs)
      | .error fault => .error { fault with before := c :: fault.before }
  | .half unit :: rest =>
      .error ⟨[], unit, (rest.takeWhile fun symbol => symbol matches .half _).length⟩

@[simp] theorem encode_map_char (cs : List Char) : encode (cs.map .char) = .ok cs := by
  induction cs with
  | nil => rfl
  | cons c cs ih => simp [encode, ih]

theorem eq_map_char_of_encode {text : List Symbol} {cs : List Char} (h : encode text = .ok cs) :
    text = cs.map .char := by
  induction text generalizing cs with
  | nil =>
      obtain rfl := Except.ok.inj h
      rfl
  | cons symbol rest ih =>
      cases symbol with
      | half unit => cases h
      | char c =>
          rw [encode] at h
          split at h
          · next found hfound =>
              obtain rfl := Except.ok.inj h
              rw [ih hfound, List.map_cons]
          · cases h

/-- A text that holds no half, given once. -/
def plain (text : Twofold String) : Except EncodeFault String :=
  (encode (symbols text)).map String.ofList

@[simp] theorem plain_same (text : String) : plain (.same text) = .ok text := by
  rw [plain, symbols_same, encode_map_char]
  exact congrArg Except.ok String.ofList_toList

/-- A text that is written whatever it holds. A half is escaped by its number. -/
def escapeHalves (text : Twofold String) : String :=
  String.ofList ((symbols text).flatMap fun
    | .char c => [c]
    | .half unit => '\\' :: 'u' :: hex 'a' 4 unit)

end Text

end RequestForms
