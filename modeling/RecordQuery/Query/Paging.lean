import RecordQuery.Error
import RecordQuery.Json.Parser
import RecordQuery.Json.Printer
import RecordQuery.Text.Blank
import RecordQuery.Wire.Value

/-!
# Pages and their cookies

A page is a number of rows cut out of an ordered result; the first page is 1.  With a page goes a
cookie: a token that says which page it was issued for and which rows stood first and last on it.
The token is the JSON text of these three, as hexadecimal digits.

A request may hand back the cookie of the page before.  It must be readable, and nothing more: the
page number decides which rows are returned.
-/

namespace RecordQuery

open Text

/-! ## Cookies -/

/-- The position of a returned page. -/
structure Cookie where
  page : UInt32
  firstId : Option RecordId
  lastId : Option RecordId
deriving DecidableEq, Repr

namespace Cookie

/-- The cookie of a page of rows. -/
def ofRows (page : UInt32) (rows : List Record) : Cookie :=
  ⟨page, rows.head?.map (·.id), rows.getLast?.map (·.id)⟩

/-- The JSON form of a cookie. -/
def toJson (c : Cookie) : Json :=
  .object
    [("page", .integer c.page.toNat), ("first_id", .ofOption RecordId.toJson c.firstId),
     ("last_id", .ofOption RecordId.toJson c.lastId)]

/-- The cookie of a JSON form. -/
def ofJson? : Json → Option Cookie :=
  Json.fields? ["page", "first_id", "last_id"]
    (fun _ ms => do
      let page ← (← Json.field? ms "page").uint32?
      let firstId ← (← Json.fieldOrNull? ms "first_id").optional? RecordId.ofJson?
      let lastId ← (← Json.fieldOrNull? ms "last_id").optional? RecordId.ofJson?
      some ⟨page, firstId, lastId⟩)
    Json.maxDepth

/-- The token of a cookie. -/
def encode (c : Cookie) : String :=
  String.ofList (hexOfBytes c.toJson.text.toUTF8.toList)

/-- The cookie of bytes that hold its JSON text.  Bytes that belong to no character do no harm in
a string that is not read. -/
def ofBytes? (bytes : List UInt8) : Option Cookie := (Json.ofBytes? bytes).bind ofJson?

/-- The cookie of a token, with blanks around it or without. -/
def decode (token : String) : Except BadCookie Cookie :=
  match bytesOfHex (trim token).toUTF8.toList with
  | .error fault => .error (.hex fault)
  | .ok bytes =>
    match ofBytes? bytes with
    | some c => .ok c
    | none => .error .content

end Cookie

/-! ## Pages -/

/-- A request for one page. -/
structure PageRequest where
  number : UInt32
  /-- The number of rows on a page. -/
  count : UInt32
  /-- The token that came with the page before. -/
  cookie : Option String
deriving DecidableEq, Repr

/-- One page of a result. -/
structure Page where
  rows : List Record
  /-- There are rows behind the page. -/
  more : Bool
  /-- The token of the page. -/
  cookie : String

namespace PageRequest

/-- The request is for some rows of some page, and its cookie is readable. -/
def validate (r : PageRequest) : Except QueryError Unit := do
  if r.number = 0 ∨ r.count = 0 then
    throw (.malformed (.emptyPage r.number.toNat r.count.toNat))
  match r.cookie with
  | some token => let _ ← (Cookie.decode token).mapError .badCookie
  | none => return ()

/-- The number of rows before the page. -/
def offset (r : PageRequest) : Nat := (r.number.toNat - 1) * r.count.toNat

/-- The requested page of a result. -/
def cut (r : PageRequest) (rows : List Record) : Except QueryError Page := do
  r.validate
  let rest := rows.drop r.offset
  let onPage := rest.take r.count.toNat
  return ⟨onPage, r.count.toNat < rest.length, (Cookie.ofRows r.number onPage).encode⟩

end PageRequest

end RecordQuery
