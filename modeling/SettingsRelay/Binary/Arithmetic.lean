import SettingsRelay.Binary.Number

/-!
# Arithmetic on binary numbers

Each operation is the exact result rounded once to the nearest number, with the usual conventions
for infinities, signed zeros and invalid operands. The units of a format cancel in a quotient.
-/

namespace SettingsRelay.Binary

variable {f g : BinaryFormat}

def ofNat (n : Nat) : Binary f := ofRatio false n 1

def ofInt (n : Int) : Binary f := ofRatio (n < 0) n.natAbs 1

protected def neg : Binary f → Binary f
  | nan => nan
  | number negative rank => number (!negative) rank

/-- The product. Zero times infinity is not a number. -/
protected def mul : Binary f → Binary f → Binary f
  | number s a, number t b =>
    let negative := s != t
    if a.val = f.infinity ∨ b.val = f.infinity then
      if a.val = 0 ∨ b.val = 0 then nan else infinity negative
    else ofRatio negative (f.units a * f.units b) (f.one * f.one)
  | _, _ => nan

/-- The quotient. Zero by zero and infinity by infinity are not numbers; any other number divided
by zero is infinite. -/
protected def div : Binary f → Binary f → Binary f
  | number s a, number t b =>
    let negative := s != t
    if a.val = f.infinity then
      if b.val = f.infinity then nan else infinity negative
    else if b.val = f.infinity then zero negative
    else if b.val = 0 then
      if a.val = 0 then nan else infinity negative
    else ofRatio negative (f.units a) (f.units b)
  | _, _ => nan

instance : Neg (Binary f) := ⟨Binary.neg⟩
instance : Mul (Binary f) := ⟨Binary.mul⟩
instance : Div (Binary f) := ⟨Binary.div⟩

def convert : Binary f → Binary g
  | nan => nan
  | number negative rank =>
    if rank.val = f.infinity then infinity negative
    else ofRatio negative (f.units rank) f.one

end SettingsRelay.Binary
