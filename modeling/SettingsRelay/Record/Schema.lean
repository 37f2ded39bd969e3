import SettingsRelay.Record.Kind

/-!
# Records and their fields

A schema lists the fields of a record type in the order of declaration, each with the functions
that get and set it, and names the record that holds before any field has been set.
-/

namespace SettingsRelay

/-- A named field of the records `R`. -/
structure Field (R : Type) where
  name : String
  kind : Kind
  get : R → kind.Carrier
  set : kind.Carrier → R → R

/-- The fields of the records `R`. -/
structure Schema (R : Type) where
  name : String
  /-- The fields in the order of declaration. -/
  fields : List (Field R)
  /-- The record whose fields stand in for absent ones. -/
  initial : R
  /-- Whether a document has to set every field. -/
  required : Bool

namespace Schema

variable {R : Type}

def find? (schema : Schema R) (name : String) : Option (Field R) :=
  schema.fields.find? (·.name = name)

/-- Equality of records: every field is equal. -/
def equals (schema : Schema R) (a b : R) : Bool :=
  schema.fields.all fun f => f.kind.equals (f.get a) (f.get b)

/-- The fields in which two records differ, be it only in the bits of a number. -/
def changed (schema : Schema R) (a b : R) : List (Field R) :=
  schema.fields.filter fun f => f.get a ≠ f.get b

/-! ## Writing -/

/-- A field's key and value, with `gap` between them. -/
def memberText (gap : List Char) (r : R) (f : Field R) : List Char :=
  quoted f.name ++ ':' :: gap ++ f.kind.write (f.get r)

/-- A record as a document without blanks. -/
def compact (schema : Schema R) (r : R) : List Char :=
  '{' :: [','].intercalate (schema.fields.map (memberText [] r)) ++ ['}']

/-- A record as a document with a line for each field. -/
def pretty (schema : Schema R) (r : R) : List Char :=
  let lines := schema.fields.map fun f => '\n' :: ' ' :: ' ' :: memberText [' '] r f
  '{' :: [','].intercalate lines ++ ['\n', '}']

end Schema

end SettingsRelay
