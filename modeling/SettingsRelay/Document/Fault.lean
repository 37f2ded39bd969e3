import SettingsRelay.Decimal.Layout
import SettingsRelay.Document.Printable

/-!
# What can be wrong with a document

A document is read once from left to right, and the first thing wrong with it is the fault that is
reported: its cause, and how much of the document was unread then, from which its position
follows.
-/

namespace SettingsRelay

/-- The start of a value. The brackets of a list or an object stay unread. -/
inductive Token where
  | null
  | flag (b : Bool)
  | integer (n : Int)
  | real (x : Double)
  | text (s : String)
  | list
  | object
deriving DecidableEq

/-- Why a document, or a member of it, could not be read. -/
inductive Cause where
  /- The text ended. -/
  | endInValue
  | endInObject
  | endInList
  | endInText
  /- The text is not a document. -/
  | expectedValue
  | expectedKeyword
  | invalidNumber
  | numberOutOfRange
  | expectedColon
  | expectedCommaOrBrace
  | expectedCommaOrBracket
  | keyNotText
  | trailingComma
  | trailingCharacters
  | invalidEscape
  | loneSurrogate
  | unfinishedSurrogate
  | controlCharacter
  /- The document is not of the expected shape. -/
  | invalidType (found : Token) (expected : String)
  | invalidInteger (found : Int) (expected : String)
  | unknownVariant (found : String) (known : List String)
  | duplicateField (name : String)
  | missingField (name : String)
  | invalidLength (found : Nat) (expected : String)
deriving DecidableEq

/-- The three ways in which reading can fail. -/
inductive Cause.Category where
  /-- The text ended before the document did. -/
  | truncated
  /-- The text is not a document. -/
  | malformed
  /-- The document is well formed and means something else. -/
  | mismatched
deriving DecidableEq, Repr

namespace Cause

def category : Cause → Category
  | endInValue | endInObject | endInList | endInText => .truncated
  | invalidType .. | invalidInteger .. | unknownVariant .. | duplicateField .. | missingField ..
  | invalidLength .. => .mismatched
  | _ => .malformed

end Cause

/-- How numbers of a format are written in documents: in place for first digits between two powers
of ten, with a `.0` on whole numbers, and `null` for what is not a finite number. -/
def documentLayout (least greatest : Int) : DecimalLayout where
  inPlace := some (least, greatest)
  wholeMark := true
  tie := .even
  nanText := "null".toList
  infinityText _ := "null".toList

def singleLayout : DecimalLayout := documentLayout (-6) 12

def doubleLayout : DecimalLayout := documentLayout (-5) 15

/-- How a fault names what was found instead of the expected value. -/
def Token.description : Token → String
  | null => "null"
  | flag b => s!"boolean `{b}`"
  | integer n => s!"integer `{n}`"
  | real x => s!"floating point `{String.ofList (doubleLayout.text x)}`"
  | text s => s!"string {quotedForMessage s}"
  | list => "sequence"
  | object => "map"

/-- The known names of a variant, each between backticks. -/
private def alternatives (names : List String) : String :=
  ", ".intercalate (names.map fun name => s!"`{name}`")

def Cause.message : Cause → String
  | endInValue => "EOF while parsing a value"
  | endInObject => "EOF while parsing an object"
  | endInList => "EOF while parsing a list"
  | endInText => "EOF while parsing a string"
  | expectedValue => "expected value"
  | expectedKeyword => "expected ident"
  | invalidNumber => "invalid number"
  | numberOutOfRange => "number out of range"
  | expectedColon => "expected `:`"
  | expectedCommaOrBrace => "expected `,` or `\x7d`"
  | expectedCommaOrBracket => "expected `,` or `]`"
  | keyNotText => "key must be a string"
  | trailingComma => "trailing comma"
  | trailingCharacters => "trailing characters"
  | invalidEscape => "invalid escape"
  | loneSurrogate => "lone leading surrogate in hex escape"
  | unfinishedSurrogate => "unexpected end of hex escape"
  | controlCharacter => "control character (\\u0000-\\u001F) found while parsing a string"
  | invalidType found expected => s!"invalid type: {found.description}, expected {expected}"
  | invalidInteger found expected => s!"invalid value: integer `{found}`, expected {expected}"
  | unknownVariant found known =>
    s!"unknown variant `{found}`, expected one of {alternatives known}"
  | duplicateField name => s!"duplicate field `{name}`"
  | missingField name => s!"missing field `{name}`"
  | invalidLength found expected => s!"invalid length {found}, expected {expected}"

/-- A cause and the number of bytes that were still unread. -/
structure Fault where
  cause : Cause
  unread : Nat
deriving DecidableEq

def byteCount (s : List Char) : Nat := s.foldr (fun c n => c.utf8Size + n) 0

@[simp] theorem byteCount_nil : byteCount [] = 0 := rfl

@[simp] theorem byteCount_cons (c : Char) (s : List Char) :
    byteCount (c :: s) = c.utf8Size + byteCount s := rfl

namespace Fault

/-- A fault found when `rest` was still to be read. -/
def before (cause : Cause) (rest : List Char) : Fault := ⟨cause, byteCount rest⟩

/-- A fault in the first byte of `rest`, or at the end of the text if nothing is left. -/
def inFirst (cause : Cause) (rest : List Char) : Fault := ⟨cause, byteCount rest - 1⟩

end Fault

/-- A place in a text: its line, and its column as the bytes since that line's start. -/
structure Position where
  line : Nat
  column : Nat
deriving DecidableEq, Repr

def Position.after (p : Position) (byte : UInt8) : Position :=
  if byte = 10 then ⟨p.line + 1, 0⟩ else ⟨p.line, p.column + 1⟩

/-- Where in its document a fault was found. -/
def Fault.position (fault : Fault) (document : String) : Position :=
  let bytes := document.toUTF8.toList
  (bytes.take (bytes.length - fault.unread)).foldl Position.after ⟨1, 0⟩

/-- What reading from the front of a text gives: a value and the unread rest, or a fault. -/
abbrev Reading (α : Type) := Except Fault (α × List Char)

namespace Reading

variable {α β : Type}

/-- Reads on where a first reading stopped. -/
def andThen (first : Reading α) (next : α → List Char → Reading β) : Reading β :=
  match first with
  | .error fault => .error fault
  | .ok (x, rest) => next x rest

@[simp] theorem andThen_error (fault : Fault) (next : α → List Char → Reading β) :
    andThen (.error fault) next = .error fault := rfl

@[simp] theorem andThen_ok (x : α) (rest : List Char) (next : α → List Char → Reading β) :
    andThen (.ok (x, rest)) next = next x rest := rfl

theorem andThen_eq_ok {first : Reading α} {next : α → List Char → Reading β} {y : β}
    {r : List Char} :
    first.andThen next = .ok (y, r) ↔
      ∃ x rest, first = .ok (x, rest) ∧ next x rest = .ok (y, r) := by
  cases first with
  | error fault => simp
  | ok p =>
    refine ⟨fun h => ⟨p.1, p.2, rfl, h⟩, ?_⟩
    rintro ⟨x, rest, h, hn⟩
    cases h
    exact hn

end Reading

end SettingsRelay
