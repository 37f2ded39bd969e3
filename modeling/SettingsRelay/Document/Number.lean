import SettingsRelay.Binary.Arithmetic
import SettingsRelay.Document.Fault

/-!
# Numbers in documents

A number is first read as the digits it is written with, and these are then evaluated. Whole
numbers that fit into 64 bits are integers. All others are evaluated in 64-bit binary arithmetic:
the leading digits that fit into 64 bits are converted, and one product or quotient (several for
very small numbers) brings in the power of ten. So the value is near the written one and not
always the nearest.
-/

namespace SettingsRelay

/-- A number as it is written. A part that is absent has no digits. -/
structure Literal where
  negative : Bool
  whole : List Char
  fraction : List Char
  exponentNegative : Bool
  exponent : List Char
deriving DecidableEq, Repr

/-! ## Reading the digits -/

/-- The digits at the front of a text, and the rest of it. -/
def digitRun (s : List Char) : List Char × List Char :=
  (s.takeWhile Char.isDigit, s.dropWhile Char.isDigit)

/-- What is wrong where a digit is due and there is none. `early` is the cause if the text has
ended. -/
def digitDue (early : Cause) (s : List Char) : Fault :=
  if s = [] then ⟨early, 0⟩ else .inFirst .invalidNumber s

/-- Reads the digits before the point. Only a lone zero may begin with a zero. -/
def wholePart (early : Cause) : List Char → Reading (List Char)
  | '0' :: rest =>
    if (digitRun rest).1 = [] then .ok (['0'], rest) else .error (.inFirst .invalidNumber rest)
  | s => if (digitRun s).1 = [] then .error (digitDue early s) else .ok (digitRun s)

/-- Reads a point and the digits after it, if there is a point. -/
def fractionPart (early : Cause) : List Char → Reading (List Char)
  | '.' :: rest =>
    if (digitRun rest).1 = [] then .error (digitDue early rest) else .ok (digitRun rest)
  | s => .ok ([], s)

def exponentSign : List Char → Bool × List Char
  | '+' :: rest => (false, rest)
  | '-' :: rest => (true, rest)
  | s => (false, s)

/-- Reads an exponent mark with its sign and digits, if there is a mark. -/
def exponentPart (early : Cause) : List Char → Reading (Bool × List Char)
  | c :: rest =>
    if c = 'e' ∨ c = 'E' then
      let (negative, rest) := exponentSign rest
      if (digitRun rest).1 = [] then .error (digitDue early rest)
      else .ok ((negative, (digitRun rest).1), (digitRun rest).2)
    else .ok ((false, []), c :: rest)
  | [] => .ok ((false, []), [])

/-- Reads a number as it is written. `early` is the cause if the text ends where a digit is due.
-/
def literal (early : Cause) (s : List Char) : Reading Literal :=
  let (negative, s) := match s with
    | '-' :: rest => (true, rest)
    | s => (false, s)
  (wholePart early s).andThen fun whole s =>
    (fractionPart early s).andThen fun fraction s =>
      (exponentPart early s).andThen fun (exponentNegative, exponent) s =>
        .ok ({ negative, whole, fraction, exponentNegative, exponent }, s)

/-! ## Evaluation -/

/-- Appends digits to a number for as long as it stays below `limit`, and gives it with the digits
that were left. -/
def gather (limit : Nat) (n : Nat) : List Char → Nat × List Char
  | [] => (n, [])
  | c :: rest =>
    let next := 10 * n + (c.toNat - '0'.toNat)
    if next < limit then gather limit next rest else (n, c :: rest)

def digitsValue (digits : List Char) : Nat := Nat.ofDigitChars 10 digits 0

/-- Divides by `10 ^ n`, in steps of `10 ^ 308`, the greatest power of ten that is a number, and
no further than down to zero. -/
def shrink (x : Double) (n : Nat) : Double :=
  if n ≤ 308 then x / .ofNat (Nat.pow 10 n)
  else if x.isZero then x
  else shrink (x / .ofNat (Nat.pow 10 308)) (n - 308)
termination_by n

/-- The number for `m * 10 ^ exponent`, unless it is too large. -/
def scaled? (m : Nat) (exponent : Int) : Option Double :=
  if exponent < 0 then some (shrink (.ofNat m) (-exponent).toNat)
  else if exponent ≤ 308 then
    let x : Double := .ofNat m * .ofNat (Nat.pow 10 exponent.toNat)
    if x.isFinite then some x else none
  else if m = 0 then some (.zero false)
  else none

namespace Literal

def isWhole (l : Literal) : Bool := l.fraction.isEmpty && l.exponent.isEmpty

def writtenExponent (l : Literal) : Int :=
  let n := digitsValue l.exponent
  if l.exponentNegative then -n else n

/-- The digits of the number that fit into 64 bits, and the power of ten they count. Digits before
the point that do not fit raise the power; digits after it that do not fit are dropped. -/
def significand (l : Literal) : Nat × Int :=
  let (m, excess) := gather UInt64.size 0 l.whole
  let (m, dropped) := gather UInt64.size m l.fraction
  (m, (excess.length : Int) - ((l.fraction.length - dropped.length : Nat) : Int))

/-- The digits of a positive exponent of a nonzero number that come after the one with which the
exponent no longer fits into 31 bits: there reading stops. -/
def excessExponent (l : Literal) : Nat :=
  if l.significand.1 = 0 ∨ l.exponentNegative then 0
  else (gather (UInt32.size / 2) 0 l.exponent).2.length - 1

/-- The value of a number that is not an integer, unless it is too large. -/
def real? (l : Literal) : Option Double :=
  let (m, power) := l.significand
  (scaled? m (power + l.writtenExponent)).map fun x => if l.negative then -x else x

/-- The value of a number, unless it is too large. -/
def value? (l : Literal) : Option Token :=
  let n := digitsValue l.whole
  if l.isWhole && n < UInt64.size && !l.negative then some (.integer n)
  else if l.isWhole && 0 < n && n ≤ UInt64.size / 2 && l.negative then some (.integer (-n))
  else l.real?.map .real

end Literal

def number (s : List Char) : Reading Token :=
  (literal .endInValue s).andThen fun l rest =>
    match l.value? with
    | some token => .ok (token, rest)
    | none => .error ⟨.numberOutOfRange, byteCount rest + l.excessExponent⟩

def skipNumber (s : List Char) : Reading Unit :=
  (literal .invalidNumber s).andThen fun _ rest => .ok ((), rest)

/-! ## Every part shortens the text -/

theorem digitRun_length (s : List Char) :
    (digitRun s).1.length + (digitRun s).2.length = s.length := by
  rw [← List.length_append]
  exact congrArg List.length List.takeWhile_append_dropWhile

theorem digitRun_shortens {s : List Char} (h : (digitRun s).1 ≠ []) :
    (digitRun s).2.length < s.length := by
  have := digitRun_length s
  have := List.length_pos_iff.2 h
  omega

theorem wholePart_shortens {early : Cause} {s ds r : List Char}
    (h : wholePart early s = .ok (ds, r)) : r.length < s.length := by
  unfold wholePart at h
  split at h
  · split at h
    · simp only [Except.ok.injEq, Prod.mk.injEq] at h
      simp [← h.2]
    · cases h
  · split at h
    · cases h
    · rename_i hd
      simp only [Except.ok.injEq] at h
      have := digitRun_shortens hd
      simpa [h] using this

theorem fractionPart_length {early : Cause} {s ds r : List Char}
    (h : fractionPart early s = .ok (ds, r)) : r.length ≤ s.length := by
  unfold fractionPart at h
  split at h
  · split at h
    · cases h
    · rename_i rest hd
      simp only [Except.ok.injEq] at h
      have := digitRun_shortens hd
      simp only [h, List.length_cons] at this ⊢
      omega
  · simp only [Except.ok.injEq, Prod.mk.injEq] at h
    simp [h.2]

theorem exponentSign_length (s : List Char) : (exponentSign s).2.length ≤ s.length := by
  unfold exponentSign
  split <;> simp

theorem exponentPart_length {early : Cause} {s r : List Char} {x : Bool × List Char}
    (h : exponentPart early s = .ok (x, r)) : r.length ≤ s.length := by
  unfold exponentPart at h
  split at h
  · rename_i c rest
    by_cases hc : c = 'e' ∨ c = 'E'
    · rw [if_pos hc] at h
      by_cases hd : (digitRun (exponentSign rest).2).1 = []
      · simp [hd] at h
      · have hl := digitRun_length (exponentSign rest).2
        have hs := exponentSign_length rest
        simp only [hd, if_false, Except.ok.injEq, Prod.mk.injEq] at h
        simp only [← h.2, List.length_cons]
        omega
    · rw [if_neg hc] at h
      simp only [Except.ok.injEq, Prod.mk.injEq] at h
      simp [← h.2]
  · simp only [Except.ok.injEq, Prod.mk.injEq] at h
    simp [← h.2]

theorem literal_shortens {early : Cause} {s r : List Char} {l : Literal}
    (h : literal early s = .ok (l, r)) : r.length < s.length := by
  unfold literal at h
  obtain ⟨whole, s₁, h₁, h⟩ := Reading.andThen_eq_ok.1 h
  obtain ⟨fraction, s₂, h₂, h⟩ := Reading.andThen_eq_ok.1 h
  obtain ⟨x, s₃, h₃, h⟩ := Reading.andThen_eq_ok.1 h
  have l₁ := wholePart_shortens h₁
  have l₂ := fractionPart_length h₂
  have l₃ := exponentPart_length h₃
  simp only [Except.ok.injEq, Prod.mk.injEq] at h
  obtain ⟨_, rfl⟩ := h
  split at l₁ <;> simp only [List.length_cons] at * <;> omega

theorem number_shortens {s r : List Char} {t : Token} (h : number s = .ok (t, r)) :
    r.length < s.length := by
  obtain ⟨l, rest, hl, h⟩ := Reading.andThen_eq_ok.1 h
  have := literal_shortens hl
  split at h
  · simp only [Except.ok.injEq, Prod.mk.injEq] at h
    obtain ⟨_, rfl⟩ := h
    exact this
  · cases h

theorem skipNumber_shortens {s r : List Char} (h : skipNumber s = .ok ((), r)) :
    r.length < s.length := by
  obtain ⟨l, rest, hl, h⟩ := Reading.andThen_eq_ok.1 h
  have := literal_shortens hl
  simp only [Except.ok.injEq, Prod.mk.injEq, true_and] at h
  subst h
  exact this

end SettingsRelay
