import ListQuery.Json.Decoder.Basic
import ListQuery.Json.Reader.Skip

/-!
# Decoding records

A record has named members. It is written as an object, in which other keys are passed over, or as
an array of the members in their order. Decoding fills a draft that starts from the values of
members that are left out.
-/

namespace ListQuery.Decoder

open Json.Reader

/-- Where a member has to be given. -/
inductive Presence where
  /-- Nowhere: it may be left out. -/
  | optional
  /-- In the array form; an object may leave it out. -/
  | inArrays
  /-- Everywhere. -/
  | required
deriving DecidableEq

/-- A member of a record with values of type `σ`. -/
structure Member (σ : Type) where
  key : String
  /-- How the member's value changes a record that does not have it yet. -/
  set : Decoder (σ → σ)
  presence : Presence

namespace Member

variable {α σ : Type}

/-- A member that may be left out. -/
def optional (key : String) (d : Decoder α) (set : α → σ → σ) : Member σ :=
  ⟨key, d.map set, .optional⟩

/-- A member that an object may leave out and an array may not. -/
def inArrays (key : String) (d : Decoder α) (set : α → σ → σ) : Member σ :=
  ⟨key, d.map set, .inArrays⟩

/-- A member that has to be there. -/
def required (key : String) (d : Decoder α) (set : α → σ → σ) : Member σ :=
  ⟨key, d.map set, .required⟩

end Member

variable {σ : Type}

/-- A record being filled: its value so far and the keys that it already has. -/
structure Draft (σ : Type) where
  value : σ
  seen : List String

/-- The member with a key. -/
def findMember (ms : List (Member σ)) (key : String) : Option (Member σ) :=
  ms.find? fun m => m.key = key

/-- The finished record, unless a required member is missing. -/
def Draft.finish (ms : List (Member σ)) (s : Draft σ) : Decoded σ :=
  match ms.find? fun m => m.presence == .required && !s.seen.contains m.key with
  | some m => .error (.missingMember m.key)
  | none => .ok s.value

/-- A member of an object in a text: a repeated member is refused before its value is read. -/
def memberOfChars (ms : List (Member σ)) (depth : Nat) (s : Draft σ) (key : String)
    (cs : List Char) : Decoded (Draft σ × List Char) :=
  match findMember ms key with
  | some m =>
    if s.seen.contains key then .error (.repeatedMember key)
    else do
      let ((), cs) ← colon cs
      let (set, cs) ← m.set.ofChars depth cs
      .ok (⟨set s.value, key :: s.seen⟩, cs)
  | none => do
    let ((), cs) ← colon cs
    let cs ← skipValue cs
    .ok (s, cs)

/-- The array form of a record in a text, up to its last member. -/
def itemsOfChars (name : String) (count depth : Nat) :
    List (Member σ) → Nat → σ → List Char → Decoded (σ × List Char)
  | [], _, s, cs => .ok (s, cs)
  | m :: ms, index, s, cs => do
    let (more, cs) ← nextItem (index == 0) cs
    if more then
      let (set, cs) ← m.set.ofChars depth cs
      itemsOfChars name count depth ms (index + 1) (set s) cs
    else if m.presence = .optional then itemsOfChars name count depth ms index s cs
    else .error (.wrongLength index (.recordItems name count))

/-- The members of an object that is there as a whole, in the object's order. -/
def membersOfJson (ms : List (Member σ)) :
    Draft σ → List (String × Json) → Decoded (Draft σ)
  | s, [] => .ok s
  | s, (key, v) :: rest =>
    match findMember ms key with
    | some m =>
      if s.seen.contains key then .error (.repeatedMember key)
      else do
        let set ← m.set.ofJson v
        membersOfJson ms ⟨set s.value, key :: s.seen⟩ rest
    | none => membersOfJson ms s rest

/-- The array form of a record that is there as a whole, of `length` items. -/
def itemsOfJson (name : String) (count length : Nat) :
    List (Member σ) → List Json → σ → Decoded σ
  | [], [], s => .ok s
  | [], _ :: _, _ => .error (.wrongLength length .noMoreItems)
  | m :: ms, v :: vs, s => do
    let set ← m.set.ofJson v
    itemsOfJson name count length ms vs (set s)
  | m :: ms, [], s =>
    if m.presence = .optional then itemsOfJson name count length ms [] s
    else .error (.wrongLength length (.recordItems name count))

/--
A record with named members, starting from the values of members that are left out. An object may
have other keys, which are passed over; an array gives the members in their order.
-/
def record (name : String) (ms : List (Member σ)) (start : σ) : Decoder σ where
  ofChars depth cs :=
    match skipSpace cs with
    | '[' :: cs =>
      match depth with
      | 0 => fails .tooDeep
      | depth + 1 => do
        let (s, cs) ← itemsOfChars name ms.length depth ms 0 start cs
        let ((), cs) ← closeArray cs
        .ok (s, cs)
    | '\x7b' :: cs =>
      match depth with
      | 0 => fails .tooDeep
      | depth + 1 => do
        let (s, cs) ← members (memberOfChars ms depth) ⟨start, []⟩ cs
        let s ← s.finish ms
        .ok (s, cs)
    | cs => .error (wrongType (.record name) cs)
  ofJson
    | .array vs => itemsOfJson name ms.length vs.length ms vs start
    | .object vs => do
      let s ← membersOfJson ms ⟨start, []⟩ vs
      s.finish ms
    | v => .error (.wrongType (Found.ofJson v) (.record name))

end ListQuery.Decoder
