import Mathlib.Data.List.Forall2
import RequestForms.Collection.Entry

/-!
# The leaves of a collection

A leaf is reached by a path of positions that goes from folder to folder. The walk through a
collection finds the leaf of every path, and the paths in lexicographic order, which is the order of
the document.
-/

namespace RequestForms.Collection

def IsFolder (item : Json) (items : List Json) : Prop := item.member? "item" = some (.array items)

/-- What a value asks for that has an address or an object as its request. -/
inductive Holds : Json → Leaf → Prop
  | address {item : Json} {url : String} (h : item.member? "request" = some (.string url)) :
      Holds item (.address url)
  | fields {item : Json} {members : List (String × Json)}
      (h : item.member? "request" = some (.object members)) : Holds item (.fields members)

/-- An element that counts for nothing: no object, or one that neither has a list of items nor asks
for anything. -/
structure IsIdle (item : Json) : Prop where
  not_folder : ∀ items, ¬IsFolder item items
  not_leaf : ∀ leaf, ¬Holds item leaf

/-- The leaf that a path of positions leads to, from folder to folder. -/
inductive LeafAt : Json → List Nat → Leaf → Prop
  | here {item : Json} {leaf : Leaf} (hfolder : ∀ items, ¬IsFolder item items)
      (hleaf : Holds item leaf) : LeafAt item [] leaf
  | inside {item inner : Json} {items : List Json} {n : Nat} {path : List Nat} {leaf : Leaf}
      (hfolder : IsFolder item items) (hinner : items[n]? = some inner)
      (hleaf : LeafAt inner path leaf) : LeafAt item (n :: path) leaf

theorem children?_eq_some_iff {item : Json} {items : List Json} :
    children? item = some items ↔ IsFolder item items := by
  unfold children? IsFolder
  split
  · next inner hmember => rw [hmember]; simp
  · next hmember =>
      refine ⟨fun h => ?_, fun h => absurd h (hmember items)⟩
      cases h

theorem leafOf?_eq_some_iff {item : Json} {leaf : Leaf} :
    leafOf? item = some leaf ↔ Holds item leaf := by
  constructor
  · intro h
    unfold leafOf? Json.member at h
    cases hmember : item.member? "request" with
    | none => rw [hmember] at h; cases h
    | some value =>
        rw [hmember, Option.getD_some] at h
        split at h
        · obtain rfl := Option.some.inj h
          exact .address hmember
        · obtain rfl := Option.some.inj h
          exact .fields hmember
        · cases h
  · rintro (h | h) <;> rw [leafOf?, Json.member, h, Option.getD_some]

theorem children?_eq_none_iff {item : Json} :
    children? item = none ↔ ∀ items, ¬IsFolder item items := by
  simp only [Option.eq_none_iff_forall_ne_some, ne_eq, children?_eq_some_iff]

theorem leafOf?_eq_none_iff {item : Json} : leafOf? item = none ↔ ∀ leaf, ¬Holds item leaf := by
  simp only [Option.eq_none_iff_forall_ne_some, ne_eq, leafOf?_eq_some_iff]

theorem isIdle_of_not_object {value : Json} (h : ∀ members, value ≠ .object members) :
    IsIdle value := by
  have hmember : ∀ name, value.member? name = none := by
    intro name
    cases value with
    | object members => exact absurd rfl (h members)
    | _ => rfl
  constructor
  · intro items hfolder
    rw [IsFolder, hmember] at hfolder
    cases hfolder
  · rintro leaf (hleaf | hleaf)
    · rw [hmember] at hleaf
      cases hleaf
    · rw [hmember] at hleaf
      cases hleaf

/-! ## The walk, item by item -/

def itemLeaves (item : Json) : List Leaf :=
  match children? item with
  | some items => leavesOf (nodes items)
  | none => (leafOf? item).toList

theorem itemLeaves_eq_of_children? {item : Json} {items : List Json}
    (h : children? item = some items) : itemLeaves item = leavesOf (nodes items) := by
  rw [itemLeaves, h]

theorem itemLeaves_eq_of_children?_eq_none {item : Json} (h : children? item = none) :
    itemLeaves item = (leafOf? item).toList := by
  rw [itemLeaves, h]

theorem leavesOf_nodes (items : List Json) :
    leavesOf (nodes items) = items.flatMap itemLeaves := by
  induction items with
  | nil => rw [nodes]; rfl
  | cons item rest ih =>
      rw [nodes, List.flatMap_cons, ← ih]
      split
      · next items hitems => rw [itemLeaves_eq_of_children? hitems]; rfl
      · next hitems =>
          rw [itemLeaves_eq_of_children?_eq_none hitems]
          split
          · next leaf hleaf => rw [hleaf]; rfl
          · next hleaf => rw [hleaf]; rfl

theorem itemLeaves_eq_of_isFolder {item : Json} {items : List Json} (h : IsFolder item items) :
    itemLeaves item = items.flatMap itemLeaves := by
  rw [itemLeaves_eq_of_children? (children?_eq_some_iff.2 h), leavesOf_nodes]

theorem itemLeaves_eq_nil_of_isIdle {item : Json} (h : IsIdle item) : itemLeaves item = [] := by
  rw [itemLeaves_eq_of_children?_eq_none (children?_eq_none_iff.2 h.not_folder),
    leafOf?_eq_none_iff.2 h.not_leaf]
  rfl

theorem leaves_eq_of_isFolder {collection : Json} {items : List Json}
    (h : IsFolder collection items) : leaves collection = items.flatMap itemLeaves := by
  rw [leaves, children?_eq_some_iff.2 h]
  exact leavesOf_nodes items

theorem leaves_eq_nil {collection : Json} (h : ∀ items, ¬IsFolder collection items) :
    leaves collection = [] := by
  rw [leaves, children?_eq_none_iff.2 h]

/-! ## The order of the document -/

/-- All leaves that have a place, each once and in the order of the paths. -/
structure Lists (places : List (List Nat × Leaf)) (IsAt : List Nat → Leaf → Prop) : Prop where
  ascending : places.Pairwise fun a b => a.1 < b.1
  mem_iff : ∀ path leaf, (path, leaf) ∈ places ↔ IsAt path leaf

/-- The leaves of items from the position `k` on, if those of the single items are listed. -/
theorem exists_lists_flatMap {items : List Json}
    (h : ∀ item ∈ items, ∃ places, Lists places (LeafAt item) ∧
      places.map Prod.snd = itemLeaves item) (k : Nat) :
    ∃ places, Lists places (fun path leaf => ∃ n inner rest, path = (k + n) :: rest ∧
        items[n]? = some inner ∧ LeafAt inner rest leaf) ∧
      places.map Prod.snd = items.flatMap itemLeaves := by
  induction items generalizing k with
  | nil => exact ⟨[], ⟨List.Pairwise.nil, by simp⟩, rfl⟩
  | cons item items ih =>
      obtain ⟨first, hfirst, hleaves⟩ := h item (by simp)
      obtain ⟨later, hlater, hmore⟩ :=
        ih (fun item hitem => h item (List.mem_cons_of_mem _ hitem)) (k + 1)
      refine ⟨first.map (fun place => (k :: place.1, place.2)) ++ later, ⟨?_, ?_⟩, ?_⟩
      · rw [List.pairwise_append, List.pairwise_map]
        refine ⟨hfirst.ascending.imp fun h => List.cons_lt_cons_iff.2 (Or.inr ⟨rfl, h⟩),
          hlater.ascending, ?_⟩
        rintro place hplace ⟨path, leaf⟩ hmem
        obtain ⟨⟨front, found⟩, -, rfl⟩ := List.mem_map.1 hplace
        obtain ⟨n, inner, rest, rfl, -, -⟩ := (hlater.mem_iff path leaf).1 hmem
        exact List.cons_lt_cons_iff.2 (Or.inl (by omega))
      · intro path leaf
        rw [List.mem_append, hlater.mem_iff]
        constructor
        · rintro (hmem | ⟨n, inner, rest, rfl, hinner, hleaf⟩)
          · obtain ⟨⟨rest, found⟩, hplace, heq⟩ := List.mem_map.1 hmem
            obtain ⟨rfl, rfl⟩ := Prod.mk.inj heq
            exact ⟨0, item, rest, rfl, rfl, (hfirst.mem_iff rest found).1 hplace⟩
          · exact ⟨n + 1, inner, rest, by rw [Nat.add_assoc, Nat.add_comm 1], hinner, hleaf⟩
        · rintro ⟨n, inner, rest, rfl, hinner, hleaf⟩
          cases n with
          | zero =>
              obtain rfl := Option.some.inj hinner
              exact Or.inl (List.mem_map.2 ⟨(rest, leaf), (hfirst.mem_iff rest leaf).2 hleaf, rfl⟩)
          | succ n =>
              refine Or.inr ⟨n, inner, rest, ?_, hinner, hleaf⟩
              rw [Nat.add_assoc, Nat.add_comm 1]
      · rw [List.map_append, List.flatMap_cons, hmore, ← hleaves, List.map_map]
        rfl

theorem leafAt_iff_of_isFolder {item : Json} {items : List Json} (h : IsFolder item items)
    {path : List Nat} {leaf : Leaf} :
    LeafAt item path leaf ↔ ∃ n inner rest, path = n :: rest ∧ items[n]? = some inner ∧
      LeafAt inner rest leaf := by
  constructor
  · intro hleaf
    cases hleaf with
    | here hfolder => exact absurd h (hfolder items)
    | inside hfolder hinner hleaf =>
        obtain rfl : items = _ := by simpa [IsFolder] using h.symm.trans hfolder
        exact ⟨_, _, _, rfl, hinner, hleaf⟩
  · rintro ⟨n, inner, rest, rfl, hinner, hleaf⟩
    exact .inside h hinner hleaf

theorem exists_lists_item (item : Json) :
    ∃ places, Lists places (LeafAt item) ∧ places.map Prod.snd = itemLeaves item := by
  cases hitems : children? item with
  | some items =>
      have hfolder := children?_eq_some_iff.1 hitems
      have hlists : ∀ inner ∈ items, ∃ places, Lists places (LeafAt inner) ∧
          places.map Prod.snd = itemLeaves inner := by
        intro inner hinner
        have hsize := List.sizeOf_lt_of_mem hinner
        have := sizeOf_of_children? hitems
        exact exists_lists_item inner
      obtain ⟨places, hplaces, hleaves⟩ := exists_lists_flatMap hlists 0
      refine ⟨places, ⟨hplaces.ascending, fun path leaf => ?_⟩, ?_⟩
      · rw [hplaces.mem_iff, leafAt_iff_of_isFolder hfolder]
        simp only [Nat.zero_add]
      · rw [hleaves, itemLeaves_eq_of_isFolder hfolder]
  | none =>
      have hfolder := children?_eq_none_iff.1 hitems
      rw [itemLeaves_eq_of_children?_eq_none hitems]
      refine ⟨(leafOf? item).toList.map fun leaf => ([], leaf), ⟨?_, fun path leaf => ?_⟩, ?_⟩
      · cases leafOf? item with
        | none => exact List.Pairwise.nil
        | some leaf => exact List.pairwise_singleton _ _
      · simp only [List.mem_map, Option.mem_toList, leafOf?_eq_some_iff, Prod.mk.injEq]
        constructor
        · rintro ⟨leaf, hleaf, rfl, rfl⟩
          exact .here hfolder hleaf
        · rintro (⟨-, hleaf⟩ | ⟨hinner, -, -⟩)
          · exact ⟨leaf, hleaf, rfl, rfl⟩
          · exact absurd hinner (hfolder _)
      · rw [List.map_map]
        exact List.map_id _
termination_by sizeOf item
decreasing_by omega

/-- The walk through a collection finds the leaves below it in the order of the document. -/
theorem exists_lists_leaves (collection : Json) :
    ∃ places, Lists places (fun path leaf => path ≠ [] ∧ LeafAt collection path leaf) ∧
      places.map Prod.snd = leaves collection := by
  by_cases h : ∃ items, IsFolder collection items
  · obtain ⟨items, hfolder⟩ := h
    obtain ⟨places, hplaces, hleaves⟩ := exists_lists_item collection
    refine ⟨places, ⟨hplaces.ascending, fun path leaf => ?_⟩, ?_⟩
    · rw [hplaces.mem_iff, leafAt_iff_of_isFolder hfolder]
      refine ⟨fun h => ⟨?_, h⟩, fun h => h.2⟩
      obtain ⟨n, inner, rest, rfl, -, -⟩ := h
      exact List.cons_ne_nil n rest
    · rw [hleaves, itemLeaves_eq_of_isFolder hfolder, leaves_eq_of_isFolder hfolder]
  · have hfolder := not_exists.1 h
    refine ⟨[], ⟨List.Pairwise.nil, fun path leaf => ?_⟩, (leaves_eq_nil hfolder).symm⟩
    refine ⟨fun hmem => absurd hmem List.not_mem_nil, ?_⟩
    rintro ⟨hne, hleaf⟩
    cases hleaf with
    | here => exact absurd rfl hne
    | inside hinner => exact absurd hinner (hfolder _)

theorem mem_leaves_of_leafAt {collection : Json} {path : List Nat} {leaf : Leaf}
    (hpath : path ≠ []) (hleaf : LeafAt collection path leaf) : leaf ∈ leaves collection := by
  obtain ⟨places, hplaces, hleaves⟩ := exists_lists_leaves collection
  rw [← hleaves]
  exact List.mem_map_of_mem ((hplaces.mem_iff path leaf).2 ⟨hpath, hleaf⟩)

/-! ## One request a leaf -/

theorem bind_eq_ok_iff {α β ε : Type} {x : Except ε α} {f : α → Except ε β} {b : β} :
    x >>= f = .ok b ↔ ∃ a, x = .ok a ∧ f a = .ok b := by
  cases x with
  | error fault => simp [bind, Except.bind]
  | ok a => simp [bind, Except.bind]

theorem bind_eq_error_iff {α β ε : Type} {x : Except ε α} {f : α → Except ε β} {fault : ε} :
    x >>= f = .error fault ↔ x = .error fault ∨ ∃ a, x = .ok a ∧ f a = .error fault := by
  cases x with
  | error found => simp [bind, Except.bind]
  | ok a => simp [bind, Except.bind]

theorem forall₂_of_mapM_eq_ok {α β ε : Type} {f : α → Except ε β} {xs : List α} {ys : List β}
    (h : xs.mapM f = .ok ys) : List.Forall₂ (fun x y => f x = .ok y) xs ys := by
  induction xs generalizing ys with
  | nil =>
      obtain rfl : [] = ys := Except.ok.inj h
      exact List.Forall₂.nil
  | cons x xs ih =>
      rw [List.mapM_cons] at h
      obtain ⟨y, hx, h⟩ := bind_eq_ok_iff.1 h
      obtain ⟨more, hxs, h⟩ := bind_eq_ok_iff.1 h
      obtain rfl : y :: more = ys := Except.ok.inj h
      exact List.Forall₂.cons hx (ih hxs)

theorem exists_of_mapM_eq_error {α β ε : Type} {f : α → Except ε β} {xs : List α} {fault : ε}
    (h : xs.mapM f = .error fault) : ∃ x ∈ xs, f x = .error fault := by
  induction xs with
  | nil => cases h
  | cons x xs ih =>
      rw [List.mapM_cons] at h
      rcases bind_eq_error_iff.1 h with hx | ⟨y, -, h⟩
      · exact ⟨x, List.mem_cons_self, hx⟩
      · rcases bind_eq_error_iff.1 h with hxs | ⟨more, -, h⟩
        · obtain ⟨x', hmem, hx'⟩ := ih hxs
          exact ⟨x', List.mem_cons_of_mem x hmem, hx'⟩
        · cases h

theorem exists_of_forall₂_of_mem {α β : Type} {R : α → β → Prop} {xs : List α} {ys : List β}
    (h : List.Forall₂ R xs ys) {x : α} (hmem : x ∈ xs) : ∃ y ∈ ys, R x y := by
  induction h with
  | nil => exact absurd hmem List.not_mem_nil
  | cons hfirst _ ih =>
      rcases List.mem_cons.1 hmem with rfl | hmem
      · exact ⟨_, List.mem_cons_self, hfirst⟩
      · obtain ⟨y, hy, hlater⟩ := ih hmem
        exact ⟨y, List.mem_cons_of_mem _ hy, hlater⟩

theorem exists_mapM_eq_error_iff {α β ε : Type} {f : α → Except ε β} {xs : List α} :
    (∃ fault, xs.mapM f = .error fault) ↔ ∃ x ∈ xs, ∃ fault, f x = .error fault := by
  constructor
  · rintro ⟨fault, h⟩
    obtain ⟨x, hmem, hx⟩ := exists_of_mapM_eq_error h
    exact ⟨x, hmem, fault, hx⟩
  · rintro ⟨x, hmem, fault, hx⟩
    cases hmap : xs.mapM f with
    | error found => exact ⟨found, rfl⟩
    | ok ys =>
        obtain ⟨y, -, hy⟩ := exists_of_forall₂_of_mem (forall₂_of_mapM_eq_ok hmap) hmem
        rw [hx] at hy
        cases hy

theorem exists_request_of_mem {collection : Json} {found : List Request} {leaf : Leaf}
    (h : requests collection = .ok found) (hleaf : leaf ∈ leaves collection) :
    ∃ request ∈ found, leaf.request = .ok request :=
  exists_of_forall₂_of_mem (forall₂_of_mapM_eq_ok h) hleaf

end RequestForms.Collection
