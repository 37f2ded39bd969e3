import SettingsRelay.Decimal.Shortest

/-!
# Decimal text of binary numbers

A layout says how the shortest decimal of a number is written out: between which powers of ten the
point stays in place, whether whole numbers keep a `.0`, and what stands for the data that have no
digits.
-/

namespace SettingsRelay

structure DecimalLayout where
  /-- The decimal exponents of a first digit that are written without an exponent part; `none` for
  all. -/
  inPlace : Option (Int × Int)
  /-- Whether a whole number written in place ends in `.0`. -/
  wholeMark : Bool
  tie : TieRule
  nanText : List Char
  infinityText (negative : Bool) : List Char

namespace DecimalLayout

/-- The digits of a decimal with the point in its place. -/
def inPlaceText (layout : DecimalLayout) (digits : List Char) (exponent : Int) : List Char :=
  let whole := digits.length + exponent
  if 0 ≤ exponent then
    digits ++ List.replicate exponent.toNat '0' ++ (if layout.wholeMark then ['.', '0'] else [])
  else if 0 < whole then digits.take whole.toNat ++ '.' :: digits.drop whole.toNat
  else '0' :: '.' :: List.replicate (-whole).toNat '0' ++ digits

/-- The digits of a decimal with the point after the first one and a signed exponent part. -/
def exponentText (digits : List Char) (first : Int) : List Char :=
  let lead := digits.take 1
  let rest := digits.drop 1
  lead ++ (if rest = [] then [] else '.' :: rest)
    ++ 'e' :: (if first < 0 then '-' else '+') :: Nat.toDigits 10 first.natAbs

def decimalText (layout : DecimalLayout) (d : Decimal) : List Char :=
  let digits := Nat.toDigits 10 d.significand
  let first := digits.length + d.exponent - 1
  match layout.inPlace with
  | none => layout.inPlaceText digits d.exponent
  | some (least, greatest) =>
    if least ≤ first ∧ first ≤ greatest then layout.inPlaceText digits d.exponent
    else exponentText digits first

def text (layout : DecimalLayout) {f : BinaryFormat} : Binary f → List Char
  | .nan => layout.nanText
  | .number negative rank =>
    if rank.val = f.infinity then layout.infinityText negative
    else
      (if negative then ['-'] else []) ++
        if rank.val = 0 then layout.inPlaceText ['0'] 0
        else layout.decimalText (.shortest f layout.tie rank)

end DecimalLayout

end SettingsRelay
