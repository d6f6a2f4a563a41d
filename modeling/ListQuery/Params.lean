import ListQuery.Json.Decoder.Record

/-!
# Query parameters

The seven parameters of a list request as they arrive in a query string: undecoded texts. A
parameter that comes several times counts with its first value, whether the parameters come as
pairs in their order (`ofPairs`) or collected by name (`ofDict`).
-/

namespace ListQuery

/-- A parameter collected by name: one text, or all texts of a repeated name. -/
inductive ParamValue where
  | one (text : String)
  | many (texts : List String)
deriving DecidableEq

namespace ParamValue

/-- The text that counts. -/
def first? : ParamValue → Option String
  | .one text => some text
  | .many texts => texts.head?

/-- The texts of an array that holds nothing else. -/
def textsOfJson? : List Json → Option (List String)
  | [] => some []
  | .string s :: rest => (textsOfJson? rest).map (s :: ·)
  | _ :: _ => none

/-- A string or an array of strings. -/
def ofJson (v : Json) : Decoded ParamValue :=
  match v with
  | .string s => .ok (.one s)
  | .array vs =>
    match textsOfJson? vs with
    | some texts => .ok (.many texts)
    | none => .error (.noForm "ParamValue")
  | _ => .error (.noForm "ParamValue")

/-- A text is read as any value first. -/
def decoder : Decoder ParamValue where
  ofChars depth cs := do
    let (v, cs) ← Json.Reader.value depth cs
    let p ← ofJson v
    .ok (p, cs)
  ofJson := ofJson

/-- The form that `ofJson` reads. -/
def toJson : ParamValue → Json
  | .one text => .string text
  | .many texts => .strings texts

end ParamValue

/-- The parameters of a list request, each as it came or absent. -/
@[ext] structure Params where
  filters : Option String
  searches : Option String
  ranges : Option String
  orderKey : Option String
  direction : Option String
  page : Option String
  rows : Option String
deriving DecidableEq

namespace Params

/-- No parameter at all. -/
def empty : Params := ⟨none, none, none, none, none, none, none⟩

instance : Inhabited Params := ⟨empty⟩

/-- An object may leave parameters out; an array has all seven. -/
def decoder : Decoder Params :=
  .record "QueryParams"
    [ .inArrays "filters" (.optional .string) fun filters p => { p with filters },
      .inArrays "searchFilters" (.optional .string) fun searches p => { p with searches },
      .inArrays "rangedFilters" (.optional .string) fun ranges p => { p with ranges },
      .inArrays "orderKey" (.optional .string) fun orderKey p => { p with orderKey },
      .inArrays "orderRule" (.optional .string) fun direction p => { p with direction },
      .inArrays "page" (.optional .string) fun page p => { p with page },
      .inArrays "rows" (.optional .string) fun rows p => { p with rows } ]
    empty

/-- The parameters collected by name. Other names are ignored. -/
def ofDict (d : Dict ParamValue) : Params where
  filters := (d.get? "filters").bind ParamValue.first?
  searches := (d.get? "searchFilters").bind ParamValue.first?
  ranges := (d.get? "rangedFilters").bind ParamValue.first?
  orderKey := (d.get? "orderKey").bind ParamValue.first?
  direction := (d.get? "orderRule").bind ParamValue.first?
  page := (d.get? "page").bind ParamValue.first?
  rows := (d.get? "rows").bind ParamValue.first?

/-- The parameters after one more pair: it counts if its parameter has not come before. -/
def offer (p : Params) (pair : String × String) : Params :=
  match pair.1 with
  | "filters" => { p with filters := p.filters.or (some pair.2) }
  | "searchFilters" => { p with searches := p.searches.or (some pair.2) }
  | "rangedFilters" => { p with ranges := p.ranges.or (some pair.2) }
  | "orderKey" => { p with orderKey := p.orderKey.or (some pair.2) }
  | "orderRule" => { p with direction := p.direction.or (some pair.2) }
  | "page" => { p with page := p.page.or (some pair.2) }
  | "rows" => { p with rows := p.rows.or (some pair.2) }
  | _ => p

/-- The parameters of a query string, from its decoded pairs in their order. -/
def ofPairs (pairs : List (String × String)) : Params := pairs.foldl offer empty

/-- All seven parameters as an object, absent ones as `null`. -/
def toJson (p : Params) : Json :=
  let member (key : String) (text : Option String) : String × Json :=
    (key, (text.map Json.string).getD .null)
  .object
    [ member "filters" p.filters, member "searchFilters" p.searches,
      member "rangedFilters" p.ranges, member "orderKey" p.orderKey,
      member "orderRule" p.direction, member "page" p.page, member "rows" p.rows ]

end Params

end ListQuery
