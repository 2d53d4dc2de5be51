import LogGuard.Text.Basic

/-!
# JSON documents

The part of JSON that a report consists of. `Json.unreadable` stands for a text that cannot be
written because its bytes are not UTF-8; a document without it is `Json.Readable`.
-/

namespace LogGuard

/-- A JSON value. -/
inductive Json where
  | bool (b : Bool)
  | number (n : Nat)
  | text (t : Text)
  /-- A text that cannot be written. -/
  | unreadable
  | array (items : List Json)
  | object (fields : List (Text × Json))

namespace Json

mutual

/-- Whether every text of the value can be written. -/
def isReadable : Json → Bool
  | .bool _ => true
  | .number _ => true
  | .text _ => true
  | .unreadable => false
  | .array items => areReadable items
  | .object fields => haveReadable fields

/-- Whether all values can be written. -/
def areReadable : List Json → Bool
  | [] => true
  | j :: rest => isReadable j && areReadable rest

/-- Whether the values of all fields can be written. -/
def haveReadable : List (Text × Json) → Bool
  | [] => true
  | (_, j) :: rest => isReadable j && haveReadable rest

end

end Json

end LogGuard
