/-!
# Documents

Settings, source units, contributions and reports are exchanged as documents: a
value is null, a flag, a number, a text, a list or a record of named fields.
`Interchange` says how a type is written and read. A record may also be given
as the list of its fields in their fixed order, unless it is what a variant
holds, and a field that may be absent may also be null.
-/

namespace DeclGraph

/-- A value in an exchanged document. -/
inductive Document where
  | null
  | flag (value : Bool)
  | number (value : Int)
  | text (value : String)
  | list (items : List Document)
  | record (fields : List (String × Document))
deriving Repr, Inhabited

/-- A type with a document form. -/
class Interchange (α : Type) where
  /-- The document form of a value. -/
  write : α → Document
  /-- The value of a document, if it has the form of one. -/
  read : Document → Option α

export Interchange (write read)

namespace Document

/-- The fields of a record. A list stands for a record when it has as many items
as the record has fields. -/
def fields? (names : List String) : Document → Option (List (String × Document))
  | .record fields => some fields
  | .list items => if items.length = names.length then some (names.zip items) else none
  | _ => none

/-- The fields of a record that a variant holds. No list stands for it. -/
def namedFields? : Document → Option (List (String × Document))
  | .record fields => some fields
  | _ => none

/-- A choice between named variants: the name and, if there is one, what the
variant holds. -/
def variant? : Document → Option (String × Document)
  | .text name => some (name, .null)
  | .record [(name, content)] => some (name, content)
  | _ => none

/-- The variant of a name, where the variants hold nothing. -/
def choice? {α : Type} (variants : List (String × α)) (document : Document) : Option α :=
  match document.variant? with
  | some (name, .null) => variants.lookup name
  | _ => none

/-- A field that must be there. -/
def required {α : Type} [Interchange α] (fields : List (String × Document)) (name : String) :
    Option α :=
  (fields.lookup name).bind read

/-- A field with a value that stands in for it when it is missing. -/
def withDefault {α : Type} [Interchange α] (fallback : α) (fields : List (String × Document))
    (name : String) : Option α :=
  match fields.lookup name with
  | some document => read document
  | none => some fallback

end Document

/-- The largest number that a word of 64 bits holds. -/
def maxWord : Nat := UInt64.size - 1

instance : Interchange Bool where
  write := .flag
  read
    | .flag value => some value
    | _ => none

instance : Interchange String where
  write := .text
  read
    | .text value => some value
    | _ => none

/-- Counts and numbers of nodes are exchanged as words of 64 bits. -/
instance : Interchange Nat where
  write value := .number value
  read
    | .number value => if 0 ≤ value ∧ value ≤ maxWord then some value.toNat else none
    | _ => none

instance : Interchange UInt64 where
  write value := .number value.toNat
  read document := (read document : Option Nat).map UInt64.ofNat

instance : Interchange Int64 where
  write value := .number value.toInt
  read
    | .number value =>
      if Int64.minValue.toInt ≤ value ∧ value ≤ Int64.maxValue.toInt then
        some (Int64.ofInt value)
      else
        none
    | _ => none

instance {α : Type} [Interchange α] : Interchange (List α) where
  write values := .list (values.map write)
  read
    | .list items => items.mapM read
    | _ => none

instance {α : Type} [Interchange α] : Interchange (Option α) where
  write
    | some value => write value
    | none => .null
  read
    | .null => some none
    | document => (read document).map some

end DeclGraph
