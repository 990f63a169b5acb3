import RequestForms.Json.Basic

/-!
# The tree of a collection

A collection is a list of items. An item with a list of items of its own is a folder, one with a
request is a leaf, and anything else does not count. Folders only group: what matters is the leaves
in their order.
-/

namespace RequestForms.Collection

/-- What an item says about its request: an address alone, or an object. -/
inductive Leaf where
  | address (url : String)
  | fields (members : List (String × Json))

inductive Node where
  | folder (children : List Node)
  | leaf (request : Leaf)

def leafOf? (item : Json) : Option Leaf :=
  match item.member "request" with
  | .string url => some (.address url)
  | .object members => some (.fields members)
  | _ => none

theorem sizeOf_of_lookup {name : String} {members : List (String × Json)} {value : Json}
    (h : members.lookup name = some value) : sizeOf value < sizeOf members := by
  induction members with
  | nil => simp at h
  | cons entry rest ih =>
      obtain ⟨key, v⟩ := entry
      rw [List.lookup_cons] at h
      split at h
      · obtain rfl := Option.some.inj h
        simp only [List.cons.sizeOf_spec, Prod.mk.sizeOf_spec]
        omega
      · have := ih h
        simp only [List.cons.sizeOf_spec]
        omega

def children? (item : Json) : Option (List Json) :=
  match item.member? "item" with
  | some (.array items) => some items
  | _ => none

theorem sizeOf_of_children? {item : Json} {items : List Json} (h : children? item = some items) :
    sizeOf items < sizeOf item := by
  unfold children? at h
  split at h
  · next found hm =>
      obtain rfl := Option.some.inj h
      unfold Json.member? at hm
      split at hm
      · have := sizeOf_of_lookup hm
        simp only [Json.array.sizeOf_spec, Json.object.sizeOf_spec] at *
        omega
      · simp at hm
  · simp at h

theorem sizeOf_lt_cons (item : Json) (rest : List Json) : sizeOf rest < sizeOf (item :: rest) := by
  simp only [List.cons.sizeOf_spec]
  omega

def nodes : List Json → List Node
  | [] => []
  | item :: rest =>
      match h : children? item with
      | some items =>
          have := sizeOf_of_children? h
          .folder (nodes items) :: nodes rest
      | none =>
          match leafOf? item with
          | some leaf => .leaf leaf :: nodes rest
          | none => nodes rest
termination_by items => sizeOf items
decreasing_by
  · exact Nat.lt_trans this (List.sizeOf_lt_of_mem List.mem_cons_self)
  all_goals exact sizeOf_lt_cons item rest

mutual

def Node.leaves : Node → List Leaf
  | .leaf leaf => [leaf]
  | .folder children => leavesOf children

def leavesOf : List Node → List Leaf
  | [] => []
  | node :: rest => node.leaves ++ leavesOf rest

end

/-- The leaves of a collection. A value without a list of items has none. -/
def leaves (collection : Json) : List Leaf :=
  match children? collection with
  | some items => leavesOf (nodes items)
  | none => []

end RequestForms.Collection
