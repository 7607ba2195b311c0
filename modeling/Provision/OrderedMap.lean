/-!
# Maps in key order

A map as a list of its entries in ascending order of their keys.  Inserting replaces the
entry of an equal key and keeps the order.
-/

namespace Provision

/-- The entries of a map, in ascending order of their keys. -/
abbrev OrderedMap (κ α : Type) := List (κ × α)

namespace OrderedMap

variable {κ α : Type} [Ord κ]

/-- Sets the value of a key. -/
def insert (key : κ) (value : α) : OrderedMap κ α → OrderedMap κ α
  | [] => [(key, value)]
  | entry :: rest =>
    match compare key entry.1 with
    | .lt => (key, value) :: entry :: rest
    | .eq => (key, value) :: rest
    | .gt => entry :: insert key value rest

/-- Removes a key. -/
def erase (key : κ) (map : OrderedMap κ α) : OrderedMap κ α :=
  map.filter fun entry => compare key entry.1 != .eq

/-- The value of a key. -/
def get? (map : OrderedMap κ α) (key : κ) : Option α :=
  (map.find? fun entry => compare key entry.1 == .eq).map Prod.snd

/-- The map of the given entries; of several with one key the last counts. -/
def ofList (entries : List (κ × α)) : OrderedMap κ α :=
  entries.foldl (fun map entry => insert entry.1 entry.2 map) []

end OrderedMap

end Provision
