import ListQuery.Json.Decoder.Basic

/-!
# Sort orders

A list is sorted by one field, by one field of a related entity, or in the store's own form. The
direction is ascending or descending; any other text is handed to the store as it is.
-/

namespace ListQuery

/-- A sort direction. -/
inductive Direction where
  | asc
  | desc
  /-- A text that the store may know. -/
  | other (text : String)
deriving DecidableEq

namespace Direction

/-- The direction that a text names. -/
def ofString (text : String) : Direction :=
  if text = "asc" then .asc else if text = "desc" then .desc else .other text

/-- The text of a direction. -/
def text : Direction → String
  | .asc => "asc"
  | .desc => "desc"
  | .other text => text

instance : Inhabited Direction := ⟨.asc⟩

/-- Directions by their text. -/
def decoder : Decoder Direction := .map ofString .string

theorem text_ofString (s : String) : (ofString s).text = s := by
  unfold ofString
  split
  · rename_i h; exact h.symm
  · split
    · rename_i h; exact h.symm
    · rfl

end Direction

/-- How a list is sorted. -/
inductive SortOrder where
  /-- In the store's order. -/
  | unsorted
  /-- By a field of the listed entity. -/
  | field (name : String) (direction : Direction)
  /-- By a field of a related entity. -/
  | related (relation field : String) (direction : Direction)
  /-- In the store's own form. -/
  | custom (value : Json)
deriving DecidableEq

namespace SortOrder

/-- No order is asked for. -/
def isUnsorted : SortOrder → Bool
  | .unsorted => true
  | _ => false

/-- The store's form of a sort order. -/
def toJson : SortOrder → Json
  | .unsorted => .object []
  | .field name direction => .entry name (.string direction.text)
  | .related relation name direction =>
    .entry relation (.entry name (.string direction.text))
  | .custom value => value

end SortOrder

end ListQuery
