import SettingsRelay.Document.Skip
import SettingsRelay.Settings.LayoutAlgorithm

/-!
# Kinds of fields

A field of a record holds a value of one of seven kinds. The kind decides how the value is written
in a document, how it is read from one, and when two values are equal.
-/

namespace SettingsRelay

inductive Kind where
  | flag
  | integer
  | text
  | optionalText
  | single
  | double
  | layout
deriving DecidableEq, Repr

namespace Kind

abbrev Carrier : Kind → Type
  | flag => Bool
  | integer => Int32
  | text => String
  | optionalText => Option String
  | single => Single
  | double => Double
  | layout => LayoutAlgorithm

instance decidableEqCarrier : (k : Kind) → DecidableEq k.Carrier
  | flag => inferInstanceAs (DecidableEq Bool)
  | integer => inferInstanceAs (DecidableEq Int32)
  | text => inferInstanceAs (DecidableEq String)
  | optionalText => inferInstanceAs (DecidableEq (Option String))
  | single => inferInstanceAs (DecidableEq Single)
  | double => inferInstanceAs (DecidableEq Double)
  | layout => inferInstanceAs (DecidableEq LayoutAlgorithm)

/-- Equality of values, where binary numbers are compared as numbers. -/
def equals : (k : Kind) → k.Carrier → k.Carrier → Bool
  | single, a, b => Binary.equals a b
  | double, a, b => Binary.equals a b
  | _, a, b => a = b

/-! ## Writing -/

/-- The digits of an integer, after a minus sign if it is negative. -/
def integerText (n : Int) : List Char :=
  if n < 0 then '-' :: Nat.toDigits 10 n.natAbs else Nat.toDigits 10 n.natAbs

def write : (k : Kind) → k.Carrier → List Char
  | flag, b => if b then ['t', 'r', 'u', 'e'] else ['f', 'a', 'l', 's', 'e']
  | integer, n => integerText n.toInt
  | text, s => quoted s
  | optionalText, none => ['n', 'u', 'l', 'l']
  | optionalText, some s => quoted s
  | single, x => singleLayout.text x
  | double, x => doubleLayout.text x
  | layout, a => quoted a.name

/-! ## Reading -/

/-- Reads a token and takes it if it is one of those expected. -/
def readToken {α : Type} (expected : String) (accept : Token → Option α) (s : List Char) :
    Reading α :=
  (token s).andThen fun found rest =>
    match accept found with
    | some x => .ok (x, rest)
    | none => .error (.before (.invalidType found expected) rest)

/-- Reads a 32-bit integer. One that needs more bits is no number of the wrong type, but out of
range. -/
def readInteger (s : List Char) : Reading Int32 :=
  (token s).andThen fun found rest =>
    match found with
    | .integer n =>
      if Int32.minValue.toInt ≤ n ∧ n ≤ Int32.maxValue.toInt then .ok (Int32.ofInt n, rest)
      else .error (.before (.invalidInteger n "i32") rest)
    | found => .error (.before (.invalidType found "i32") rest)

/-- The number of a token, rounded once. -/
def numberOf? {f : BinaryFormat} : Token → Option (Binary f)
  | .integer n => some (.ofInt n)
  | .real x => some x.convert
  | _ => none

/-- The layout algorithm with the name that was just read. -/
def layoutNamed (name : List Char) (rest : List Char) : Reading LayoutAlgorithm :=
  match LayoutAlgorithm.ofName? (String.ofList name) with
  | some a => .ok (a, rest)
  | none =>
    .error (.before (.unknownVariant (String.ofList name) (LayoutAlgorithm.all.map (·.name))) rest)

/-- Reads a layout algorithm: its name, or an object with that name as its only key and no value.
-/
def readLayout (s : List Char) : Reading LayoutAlgorithm :=
  match skipBlank s with
  | [] => .error ⟨.endInValue, 0⟩
  | '"' :: rest => (textBody rest).andThen layoutNamed
  | '{' :: rest =>
    match skipBlank rest with
    | [] => .error ⟨.endInObject, 0⟩
    | '"' :: rest =>
      (textBody rest).andThen fun name rest =>
        (layoutNamed name rest).andThen fun a rest =>
          (colon rest).andThen fun _ rest =>
            (readToken "unit" (fun t => if t = .null then some () else none) rest).andThen
              fun _ rest =>
                match skipBlank rest with
                | [] => .error ⟨.endInObject, 0⟩
                | '}' :: rest => .ok (a, rest)
                | rest => .error (.before .expectedValue rest)
    | '}' :: rest => .error (.inFirst .expectedValue ('}' :: rest))
    | rest => .error (.inFirst .keyNotText rest)
  | rest => .error (.inFirst .expectedValue rest)

def read : (k : Kind) → List Char → Reading k.Carrier
  | flag => readToken "a boolean" fun | .flag b => some b | _ => none
  | integer => readInteger
  | text => readToken "a string" fun | .text s => some s | _ => none
  | optionalText =>
    readToken "a string" fun | .null => some none | .text s => some (some s) | _ => none
  | single => readToken "f32" numberOf?
  | double => readToken "f64" numberOf?
  | layout => readLayout

/-! ## Reading shortens the text -/

theorem readToken_shortens {α : Type} {expected : String} {accept : Token → Option α}
    (hl : accept .list = none) (ho : accept .object = none) {s r : List Char} {x : α}
    (h : readToken expected accept s = .ok (x, r)) : r.length < s.length := by
  obtain ⟨t, rest, ht, h⟩ := Reading.andThen_eq_ok.1 h
  have := (token_length ht).2
  split at h
  · rename_i y hy
    simp only [Except.ok.injEq, Prod.mk.injEq] at h
    obtain ⟨_, rfl⟩ := h
    exact this (by rintro rfl; simp [hl] at hy) (by rintro rfl; simp [ho] at hy)
  · cases h

theorem readInteger_shortens {s r : List Char} {n : Int32} (h : readInteger s = .ok (n, r)) :
    r.length < s.length := by
  obtain ⟨t, rest, ht, h⟩ := Reading.andThen_eq_ok.1 h
  have := (token_length ht).2
  split at h
  · split at h
    · simp only [Except.ok.injEq, Prod.mk.injEq] at h
      obtain ⟨_, rfl⟩ := h
      exact this (by simp) (by simp)
    · cases h
  · cases h

theorem layoutNamed_rest {name rest r : List Char} {a : LayoutAlgorithm}
    (h : layoutNamed name rest = .ok (a, r)) : r = rest := by
  unfold layoutNamed at h
  split at h
  · simp only [Except.ok.injEq, Prod.mk.injEq] at h
    exact h.2.symm
  · cases h

theorem readLayout_shortens {s r : List Char} {a : LayoutAlgorithm}
    (h : readLayout s = .ok (a, r)) : r.length < s.length := by
  have hb := skipBlank_length s
  unfold readLayout at h
  split at h
  · cases h
  · rename_i rest heq
    obtain ⟨name, rest', ht, h⟩ := Reading.andThen_eq_ok.1 h
    have := textBody_shortens ht
    rw [heq, List.length_cons] at hb
    rw [layoutNamed_rest h]
    omega
  · rename_i rest heq
    have hb' := skipBlank_length rest
    rw [heq, List.length_cons] at hb
    split at h
    · cases h
    · rename_i rest₀ heq'
      rw [heq', List.length_cons] at hb'
      obtain ⟨name, rest₁, ht, h⟩ := Reading.andThen_eq_ok.1 h
      obtain ⟨a', rest₂, hn, h⟩ := Reading.andThen_eq_ok.1 h
      obtain ⟨_, rest₃, hc, h⟩ := Reading.andThen_eq_ok.1 h
      obtain ⟨_, rest₄, hu, h⟩ := Reading.andThen_eq_ok.1 h
      have l₁ := textBody_shortens ht
      have l₂ := layoutNamed_rest hn
      have l₃ := colon_shortens hc
      have l₄ := readToken_shortens (by simp) (by simp) hu
      have l₅ := skipBlank_length rest₄
      rw [l₂] at l₃
      split at h
      · cases h
      · rename_i heq''
        simp only [Except.ok.injEq, Prod.mk.injEq] at h
        obtain ⟨_, rfl⟩ := h
        rw [heq'', List.length_cons] at l₅
        omega
      · cases h
    · cases h
    · cases h
  · cases h

theorem read_shortens {k : Kind} {s r : List Char} {x : k.Carrier}
    (h : k.read s = .ok (x, r)) : r.length < s.length := by
  cases k with
  | integer => exact readInteger_shortens h
  | layout => exact readLayout_shortens h
  | flag => exact readToken_shortens rfl rfl h
  | text => exact readToken_shortens rfl rfl h
  | optionalText => exact readToken_shortens rfl rfl h
  | single => exact readToken_shortens rfl rfl h
  | double => exact readToken_shortens rfl rfl h

end Kind

end SettingsRelay
