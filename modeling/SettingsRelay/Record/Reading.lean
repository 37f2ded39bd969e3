import SettingsRelay.Record.Schema

/-!
# Reading records

A record is written as an object, whose members set the fields they name in any order, or as a
list of the fields in the order of declaration. Members with other names are passed over, and a
name must not come twice.
-/

namespace SettingsRelay

/-- What has been read of an object: the record so far, and the names of the fields that were set.
-/
structure Progress (R : Type) where
  record : R
  present : List String

/-- What follows a member: the start of another one's key, if the object goes on. -/
def memberSeparator (s : List Char) : Reading Bool :=
  match skipBlank s with
  | [] => .error ⟨.endInObject, 0⟩
  | '}' :: rest => .ok (false, rest)
  | ',' :: rest =>
    match skipBlank rest with
    | [] => .error ⟨.endInValue, 0⟩
    | '"' :: rest => .ok (true, rest)
    | '}' :: rest => .error (.inFirst .trailingComma ('}' :: rest))
    | rest => .error (.inFirst .keyNotText rest)
  | rest => .error (.inFirst .expectedCommaOrBrace rest)

/-- A name that comes twice is reported once the closing brace, if it follows, has been read. -/
def duplicateFault (name : String) (rest : List Char) : Fault :=
  match skipBlank rest with
  | '}' :: rest => .before (.duplicateField name) rest
  | rest => .before (.duplicateField name) rest

/-- Whether a list has another element, which is then at the front; if not, its bracket is. -/
def elementDue (first : Bool) (s : List Char) : Reading Bool :=
  match skipBlank s with
  | [] => .error ⟨.endInList, 0⟩
  | ']' :: rest => .ok (false, ']' :: rest)
  | c :: rest =>
    if first then .ok (true, c :: rest)
    else if c = ',' then
      match skipBlank rest with
      | [] => .error ⟨.endInValue, 0⟩
      | ']' :: rest => .error (.inFirst .trailingComma (']' :: rest))
      | rest => .ok (true, rest)
    else .error (.inFirst .expectedCommaOrBracket (c :: rest))

def listEnd (s : List Char) : Reading Unit :=
  match skipBlank s with
  | [] => .error ⟨.endInList, 0⟩
  | ']' :: rest => .ok ((), rest)
  | ',' :: rest =>
    match skipBlank rest with
    | ']' :: rest => .error (.inFirst .trailingComma (']' :: rest))
    | rest => .error (.inFirst .trailingCharacters rest)
  | rest => .error (.inFirst .trailingCharacters rest)

theorem memberSeparator_shortens {s r : List Char} {more : Bool}
    (h : memberSeparator s = .ok (more, r)) : r.length < s.length := by
  have hb := skipBlank_length s
  unfold memberSeparator at h
  split at h
  · cases h
  · rename_i heq
    cases h
    rw [heq, List.length_cons] at hb
    omega
  · rename_i rest heq
    have hb' := skipBlank_length rest
    rw [heq, List.length_cons] at hb
    split at h
    · cases h
    · rename_i heq'
      cases h
      rw [heq', List.length_cons] at hb'
      omega
    · cases h
    · cases h
  · cases h

namespace Schema

variable {R : Type} (schema : Schema R)

/-- Reads a member after the opening quote of its key. -/
def member (progress : Progress R) (s : List Char) : Reading (Progress R) :=
  (textBody s).andThen fun key rest =>
    match schema.find? (String.ofList key) with
    | none =>
      (colon rest).andThen fun _ rest =>
        (skipValue [] rest).andThen fun _ rest => .ok (progress, rest)
    | some f =>
      if f.name ∈ progress.present then .error (duplicateFault f.name rest)
      else
        (colon rest).andThen fun _ rest =>
          (f.kind.read rest).andThen fun x rest =>
            .ok (⟨f.set x progress.record, f.name :: progress.present⟩, rest)

theorem member_shortens {progress p : Progress R} {s r : List Char}
    (h : schema.member progress s = .ok (p, r)) : r.length < s.length := by
  obtain ⟨key, rest, ht, h⟩ := Reading.andThen_eq_ok.1 h
  have := textBody_shortens ht
  split at h
  · obtain ⟨_, rest₁, hc, h⟩ := Reading.andThen_eq_ok.1 h
    obtain ⟨_, rest₂, hs, h⟩ := Reading.andThen_eq_ok.1 h
    have := colon_shortens hc
    have := skipValue_shortens hs
    cases h
    omega
  · split at h
    · cases h
    · obtain ⟨_, rest₁, hc, h⟩ := Reading.andThen_eq_ok.1 h
      obtain ⟨_, rest₂, hs, h⟩ := Reading.andThen_eq_ok.1 h
      have := colon_shortens hc
      have := Kind.read_shortens hs
      cases h
      omega

/-- Reads members after the opening quote of the first one's key, up to and with the closing
brace. -/
def members (progress : Progress R) (s : List Char) : Reading (Progress R) :=
  match h : schema.member progress s with
  | .error fault => .error fault
  | .ok (progress, rest) =>
    match h' : memberSeparator rest with
    | .error fault => .error fault
    | .ok (false, rest) => .ok (progress, rest)
    | .ok (true, rest) =>
      have := schema.member_shortens h
      have := memberSeparator_shortens h'
      members progress rest
termination_by s.length

/-- The record that was read, if every field that has to be set was. -/
def finish (progress : Progress R) (rest : List Char) : Reading R :=
  match schema.fields.find? fun f => schema.required && f.name ∉ progress.present with
  | some f => .error (.before (.missingField f.name) rest)
  | none => .ok (progress.record, rest)

/-- Reads an object after its opening brace. -/
def readObject (s : List Char) : Reading R :=
  match skipBlank s with
  | [] => .error ⟨.endInObject, 0⟩
  | '}' :: rest => schema.finish ⟨schema.initial, []⟩ rest
  | '"' :: rest => (schema.members ⟨schema.initial, []⟩ rest).andThen schema.finish
  | rest => .error (.inFirst .keyNotText rest)

/-- Reads the elements of a list into the given fields, and gives the fields that had none. -/
def elements (first : Bool) (r : R) : List (Field R) → List Char → Reading (R × List (Field R))
  | [], s => .ok ((r, []), s)
  | f :: fields, s =>
    (elementDue first s).andThen fun due rest =>
      if due then (f.kind.read rest).andThen fun x rest => elements false (f.set x r) fields rest
      else .ok ((r, f :: fields), rest)

/-- Reads a list after its opening bracket. -/
def readList (s : List Char) : Reading R :=
  (elements true schema.initial schema.fields s).andThen fun (r, absent) rest =>
    (listEnd rest).andThen fun _ rest =>
      if schema.required && !absent.isEmpty then
        let count := schema.fields.length
        let expected := s!"struct {schema.name} with {count} elements"
        .error (.before (.invalidLength (count - absent.length) expected) rest)
      else .ok (r, rest)

def read (s : List Char) : Reading R :=
  match skipBlank s with
  | '[' :: rest => schema.readList rest
  | '{' :: rest => schema.readObject rest
  | rest => Kind.readToken s!"struct {schema.name}" (fun _ => none) rest

end Schema

/-- Reads a whole text as one value. -/
def parseAll {α : Type} (read : List Char → Reading α) (text : String) : Except Fault α :=
  match read text.toList with
  | .error fault => .error fault
  | .ok (x, rest) =>
    match skipBlank rest with
    | [] => .ok x
    | rest => .error (.inFirst .trailingCharacters rest)

end SettingsRelay
