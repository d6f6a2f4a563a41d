import ListQuery.Json.Decoder.Record
import ListQuery.PageParam
import ListQuery.Sort

/-!
# List requests

What a client asks of a list: exact filters, substring searches, ranges, an order and a page. A
request is decoded from JSON, extracted from query parameters, or put together call by call.
-/

namespace ListQuery

/-- A field that has to lie between two bounds, both included. -/
structure RangeFilter where
  key : String
  start : Json
  stop : Json
deriving DecidableEq

namespace RangeFilter

/-- Ranges need a key; a missing bound is `null`. -/
def decoder : Decoder RangeFilter :=
  .record "RangedFilter"
    [ .required "key" .string fun key r => { r with key },
      .optional "start" .json fun start r => { r with start },
      .optional "end" .json fun stop r => { r with stop } ]
    ⟨"", .null, .null⟩

/-- The object form of a range. -/
def toJson (r : RangeFilter) : Json :=
  .object [("key", .string r.key), ("start", r.start), ("end", r.stop)]

end RangeFilter

/-- A list request. Empty dictionaries and lists, and `none`, stand for what was not asked. -/
@[ext] structure Request where
  filters : Dict Json
  searches : Dict Json
  ranges : List RangeFilter
  orderKey : Option String
  direction : Option Direction
  page : Option PageParam
  rows : Option PageParam
deriving DecidableEq

namespace Request

/-- The request that asks for nothing in particular. -/
def empty : Request := ⟨.empty, .empty, [], none, none, none, none⟩

instance : Inhabited Request := ⟨empty⟩

/-- The members of a request, each of which may be left out. -/
def members : List (Decoder.Member Request) :=
  [ .optional "filters" (.dictionary .json) fun filters r => { r with filters },
    .optional "searchFilters" (.dictionary .json) fun searches r => { r with searches },
    .optional "rangedFilters" (.list RangeFilter.decoder) fun ranges r => { r with ranges },
    .optional "orderKey" (.optional .string) fun orderKey r => { r with orderKey },
    .optional "orderRule" (.optional Direction.decoder) fun direction r => { r with direction },
    .optional "page" (.optional PageParam.decoder) fun page r => { r with page },
    .optional "rows" (.optional PageParam.decoder) fun rows r => { r with rows } ]

theorem presence_members : ∀ m ∈ members, m.presence ≠ .required := by
  simp [members, Decoder.Member.optional]

/-- A request is a record whose members start out empty. -/
def decoder : Decoder Request := .record "FilterRequest" members empty

/-- A member that is written only if it is there. -/
def optionalMember (key : String) (value : Option Json) : List (String × Json) :=
  value.toList.map fun v => (key, v)

/-- A dictionary as an object, if it has any member. -/
def nonempty (d : Dict Json) : Option Json := if d.isEmpty then none else some (.ofDict d)

/-- What was asked, as the members of an object. -/
def written (r : Request) : List (String × Json) :=
  optionalMember "filters" (nonempty r.filters) ++
  optionalMember "searchFilters" (nonempty r.searches) ++
  optionalMember "rangedFilters"
    (if r.ranges.isEmpty then none else some (.array (r.ranges.map RangeFilter.toJson))) ++
  optionalMember "orderKey" (r.orderKey.map .string) ++
  optionalMember "orderRule" (r.direction.map fun d => .string d.text) ++
  optionalMember "page" (r.page.map PageParam.toJson) ++
  optionalMember "rows" (r.rows.map PageParam.toJson)

/-- The object form of a request. -/
def toJson (r : Request) : Json := .object r.written

/-! ### Call by call -/

/-- One call in the making of a request. -/
inductive Call where
  | filter (key : String) (value : Json)
  | search (key : String) (value : Json)
  | range (key : String) (start stop : Json)
  | order (key : String) (direction : Option Direction)
  | page (n : Signed64)
  | rows (n : Signed64)

/-- The request after a call. A later call under the same key, or of the same kind, replaces. -/
def apply (r : Request) : Call → Request
  | .filter key value => { r with filters := r.filters.insert key value }
  | .search key value => { r with searches := r.searches.insert key value }
  | .range key start stop => { r with ranges := r.ranges ++ [⟨key, start, stop⟩] }
  | .order key direction => { r with orderKey := some key, direction }
  | .page n => { r with page := some (.valid n) }
  | .rows n => { r with rows := some (.valid n) }

/-- The request that a sequence of calls makes. -/
def ofCalls (calls : List Call) : Request := calls.foldl apply empty

end Request

end ListQuery
