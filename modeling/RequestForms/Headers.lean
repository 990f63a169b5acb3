import RequestForms.Assoc
import RequestForms.Text.Casing

/-!
# Header fields

The headers of a request: distinct names with a value each, in the order in which the names were
first written.
-/

namespace RequestForms

/-- Header fields in order, each name once. -/
structure Headers where
  entries : List (String × String)
  nodup_names : (entries.map Prod.fst).Nodup
deriving DecidableEq

namespace Headers

def empty : Headers := ⟨[], List.nodup_nil⟩

instance : Inhabited Headers := ⟨empty⟩

def set (name value : String) (headers : Headers) : Headers :=
  ⟨Assoc.set name value headers.entries, Assoc.nodup_keys_set headers.nodup_names⟩

def ofPairs (pairs : List (String × String)) : Headers :=
  ⟨Assoc.ofPairs pairs, Assoc.nodup_keys_ofPairs pairs⟩

/-- Whether a header of this name is present, in whatever case. -/
def has (name : String) (headers : Headers) : Bool :=
  headers.entries.any fun entry => Text.sameIgnoringCase entry.1 name

def isEmpty (headers : Headers) : Bool := headers.entries.isEmpty

@[simp] theorem entries_set (name value : String) (headers : Headers) :
    (headers.set name value).entries = Assoc.set name value headers.entries := rfl

end Headers

end RequestForms
