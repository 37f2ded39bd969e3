import Mathlib.Data.Nat.Basic
import SettingsRelay.Proofs.Shortest
import SettingsRelay.Record.Kind

/-!
# Written numbers

Each number that is written is a literal: its sign, the digits before and after the point, and an
exponent. Whatever cannot go on a number may follow it, and the literal that is then read is the
one that was written.
-/

namespace SettingsRelay

/-- Whether a number that ends here has been read whole: no digit follows, no point and no exponent
mark. -/
def EndsNumber (rest : List Char) : Prop := ∀ c ∈ rest.head?, ¬c.isDigit ∧ c ≠ '.' ∧ c ≠ 'e' ∧ c ≠ 'E'

theorem EndsNumber.of_char {c : Char} (hc : ¬c.isDigit ∧ c ≠ '.' ∧ c ≠ 'e' ∧ c ≠ 'E') (s : List Char) :
    EndsNumber (c :: s) := by
  rintro _ ⟨⟩
  exact hc

def IsDigits (s : List Char) : Prop := ∀ c ∈ s, c.isDigit = true

theorem isDigits_toDigits (n : Nat) : IsDigits (Nat.toDigits 10 n) :=
  fun _ => Nat.isDigit_of_mem_toDigits (by decide) (by decide)

theorem digitsValue_toDigits (n : Nat) : digitsValue (Nat.toDigits 10 n) = n :=
  Nat.ofDigitChars_ten_toDigits

theorem digitRun_append {ds rest : List Char} (hds : IsDigits ds) (hrest : ∀ c ∈ rest.head?, ¬c.isDigit) :
    digitRun (ds ++ rest) = (ds, rest) := by
  have hnone : rest.takeWhile Char.isDigit = [] ∧ rest.dropWhile Char.isDigit = rest := by
    cases rest with
    | nil => exact ⟨rfl, rfl⟩
    | cons c rest =>
      have hc : ¬c.isDigit := hrest c rfl
      exact ⟨List.takeWhile_cons_of_neg hc, List.dropWhile_cons_of_neg hc⟩
  rw [digitRun, List.takeWhile_append_of_pos hds, List.dropWhile_append_of_pos hds, hnone.1, hnone.2,
    List.append_nil]

namespace Literal

def text (l : Literal) : List Char :=
  (if l.negative then ['-'] else []) ++ l.whole ++ (if l.fraction = [] then [] else '.' :: l.fraction) ++
    if l.exponent = [] then [] else 'e' :: (if l.exponentNegative then '-' else '+') :: l.exponent

/-- A literal that can be written: there are digits before the point, and they begin with a zero only
if there are no more. -/
structure IsWritable (l : Literal) : Prop where
  whole : IsDigits l.whole
  fraction : IsDigits l.fraction
  exponent : IsDigits l.exponent
  hasWhole : l.whole ≠ []
  leadingZero : ∀ ds, l.whole = '0' :: ds → ds = []
  noSign : l.exponent = [] → l.exponentNegative = false

end Literal

theorem wholePart_append {early : Cause} {ds rest : List Char} (hds : IsDigits ds) (hne : ds ≠ [])
    (hzero : ∀ r, ds = '0' :: r → r = []) (hrest : ∀ c ∈ rest.head?, ¬c.isDigit) :
    wholePart early (ds ++ rest) = .ok (ds, rest) := by
  unfold wholePart
  split
  · next r heq =>
    have hlone : ds = ['0'] := by
      cases ds with
      | nil => exact absurd rfl hne
      | cons c ds =>
        have hc : c = '0' := (List.cons.inj heq).1
        rw [hc, hzero ds (by rw [hc])]
    subst hlone
    have hr : r = rest := (List.cons.inj heq).2.symm
    have hnone : IsDigits [] := by simp [IsDigits]
    have hrun : digitRun rest = ([], rest) := digitRun_append hnone hrest
    rw [hr, hrun]
    rfl
  · rw [digitRun_append hds hrest, if_neg hne]

theorem fractionPart_append {early : Cause} {ds rest : List Char} (hds : IsDigits ds)
    (hrest : ∀ c ∈ rest.head?, ¬c.isDigit ∧ c ≠ '.') :
    fractionPart early ((if ds = [] then [] else '.' :: ds) ++ rest) = .ok (ds, rest) := by
  split
  · next hnone =>
    subst hnone
    unfold fractionPart
    split
    · next r heq => exact absurd rfl (hrest '.' (by rw [← List.nil_append rest, heq]; rfl)).2
    · rfl
  · next hne =>
    rw [List.cons_append, fractionPart, digitRun_append hds fun c hc => (hrest c hc).1, if_neg hne]

theorem exponentPart_append {early : Cause} {negative : Bool} {ds rest : List Char} (hds : IsDigits ds)
    (hsign : ds = [] → negative = false) (hrest : EndsNumber rest) :
    exponentPart early ((if ds = [] then [] else 'e' :: (if negative then '-' else '+') :: ds) ++ rest) =
      .ok ((negative, ds), rest) := by
  split
  · next hnone =>
    rw [hsign hnone, hnone, List.nil_append]
    cases rest with
    | nil => rfl
    | cons c rest =>
      obtain ⟨_, _, he, hE⟩ := hrest c rfl
      have hc : ¬(c = 'e' ∨ c = 'E') := not_or.2 ⟨he, hE⟩
      rw [exponentPart, if_neg hc]
  · next hne =>
    have hrun : digitRun (ds ++ rest) = (ds, rest) := digitRun_append hds fun c hc => (hrest c hc).1
    cases negative <;>
      simp only [List.cons_append, exponentPart, exponentSign, hrun, hne, true_or, if_true, if_false,
        Bool.false_eq_true]

/-- What follows the digits before the point is no digit, and after those behind it there is no other
point. -/
theorem head?_exponent {e : Char} {ds rest : List Char} (hrest : EndsNumber rest) :
    ∀ c ∈ ((if ds = [] then [] else 'e' :: e :: ds) ++ rest).head?, ¬c.isDigit ∧ c ≠ '.' := by
  split
  · exact fun c hc => ⟨(hrest c hc).1, (hrest c hc).2.1⟩
  · rintro c ⟨⟩
    decide

theorem head?_fraction {ds rest : List Char} (hrest : ∀ c ∈ rest.head?, ¬c.isDigit) :
    ∀ c ∈ ((if ds = [] then [] else '.' :: ds) ++ rest).head?, ¬c.isDigit := by
  split
  · exact hrest
  · rintro c ⟨⟩
    decide

theorem literal_text {early : Cause} {l : Literal} {rest : List Char} (hl : l.IsWritable) (hrest : EndsNumber rest) :
    literal early (l.text ++ rest) = .ok (l, rest) := by
  obtain ⟨negative, whole, fraction, exponentNegative, exponent⟩ := l
  let last := (if exponent = [] then [] else 'e' :: (if exponentNegative then '-' else '+') :: exponent) ++ rest
  let behind := (if fraction = [] then [] else '.' :: fraction) ++ last
  have hexponent : exponentPart early last = .ok ((exponentNegative, exponent), rest) :=
    exponentPart_append hl.exponent hl.noSign hrest
  have hlast : ∀ c ∈ last.head?, ¬c.isDigit ∧ c ≠ '.' := head?_exponent hrest
  have hfraction : fractionPart early behind = .ok (fraction, last) := fractionPart_append hl.fraction hlast
  have hwhole : wholePart early (whole ++ behind) = .ok (whole, behind) :=
    wholePart_append hl.whole hl.hasWhole hl.leadingZero (head?_fraction fun c hc => (hlast c hc).1)
  have htext : Literal.text ⟨negative, whole, fraction, exponentNegative, exponent⟩ ++ rest =
      (if negative then ['-'] else []) ++ (whole ++ behind) := by
    simp only [Literal.text, List.append_assoc, behind, last]
  have hsign : ∀ c r, whole ++ behind = c :: r → c ≠ '-' := by
    rintro c r heq rfl
    cases whole with
    | nil => exact hl.hasWhole rfl
    | cons d ds =>
      have hd : d.isDigit = true := hl.whole d List.mem_cons_self
      rw [(List.cons.inj heq).1] at hd
      exact absurd hd (by decide)
  rw [htext]
  cases negative with
  | true =>
    change (wholePart early (whole ++ behind)).andThen _ = _
    rw [hwhole, Reading.andThen_ok, hfraction, Reading.andThen_ok, hexponent]
    rfl
  | false =>
    unfold literal
    simp only [Bool.false_eq_true, if_false, List.nil_append]
    split
    · next r heq => exact absurd rfl (hsign '-' r heq)
    · rw [hwhole, Reading.andThen_ok, hfraction, Reading.andThen_ok, hexponent]
      rfl

/-! ## Integers -/

def Literal.ofInt (n : Int) : Literal := ⟨n < 0, Nat.toDigits 10 n.natAbs, [], false, []⟩

/-- Only zero is written with a zero in front. -/
theorem leadingZero_toDigits {n : Nat} {ds : List Char} (h : Nat.toDigits 10 n = '0' :: ds) : ds = [] := by
  induction n using Nat.strongRecOn generalizing ds with
  | _ n ih =>
    by_cases hn : n < 10
    · rw [Nat.toDigits_of_lt_base hn] at h
      exact (List.cons.inj h).2.symm
    · have hle : 10 ≤ n := Nat.le_of_not_lt hn
      obtain ⟨c, cs, hfront⟩ := List.exists_cons_of_ne_nil (Nat.toDigits_ne_nil (n := n / 10) (b := 10))
      rw [Nat.toDigits_of_base_le (by decide) hle, hfront] at h
      have hc : c = '0' := (List.cons.inj h).1
      rw [hc] at hfront
      have hzero : Nat.toDigits 10 (n / 10) = ['0'] := by
        rw [hfront, ih (n / 10) (by omega) hfront]
      have hvalue : n / 10 = 0 := by rw [← digitsValue_toDigits (n / 10), hzero]; rfl
      omega

namespace Literal

theorem isWritable_ofInt (n : Int) : (ofInt n).IsWritable where
  whole := isDigits_toDigits _
  fraction := by simp [ofInt, IsDigits]
  exponent := by simp [ofInt, IsDigits]
  hasWhole := Nat.toDigits_ne_nil
  leadingZero _ := leadingZero_toDigits
  noSign _ := rfl

theorem text_ofInt (n : Int) : (ofInt n).text = Kind.integerText n := by
  unfold text ofInt Kind.integerText
  by_cases hn : n < 0 <;> simp [hn]

theorem value?_ofInt {n : Int} (hlow : -2 ^ 63 ≤ n) (hhigh : n < 2 ^ 64) : (ofInt n).value? = some (.integer n) := by
  unfold value? ofInt isWhole
  simp only [digitsValue_toDigits]
  by_cases hn : n < 0
  · have hsize : n.natAbs ≤ UInt64.size / 2 ∧ 0 < n.natAbs := by
      rw [show UInt64.size / 2 = 2 ^ 63 by decide]
      omega
    have hvalue : -(n.natAbs : Int) = n := by omega
    simp [hn, hsize, hvalue, -Nat.cast_natAbs]
  · have hsize : n.natAbs < UInt64.size := by
      rw [show UInt64.size = 2 ^ 64 by decide]
      omega
    have hvalue : (n.natAbs : Int) = n := by omega
    simp [hn, hsize, hvalue]

end Literal

/-- A number with digits behind the point or an exponent is read as a real number. -/
theorem Literal.value?_of_not_isWhole {l : Literal} (h : l.isWhole = false) : l.value? = l.real?.map .real := by
  simp [value?, h]

theorem number_integerText {n : Int} {rest : List Char} (hlow : -2 ^ 63 ≤ n) (hhigh : n < 2 ^ 64)
    (hrest : EndsNumber rest) : number (Kind.integerText n ++ rest) = .ok (.integer n, rest) := by
  rw [← Literal.text_ofInt, number, literal_text (Literal.isWritable_ofInt n) hrest, Reading.andThen_ok,
    Literal.value?_ofInt hlow hhigh]

/-! ## Decimals -/

namespace DecimalLayout

def inPlaceLiteral (negative : Bool) (digits : List Char) (exponent : Int) : Literal :=
  let whole := digits.length + exponent
  if 0 ≤ exponent then ⟨negative, digits ++ List.replicate exponent.toNat '0', ['0'], false, []⟩
  else if 0 < whole then ⟨negative, digits.take whole.toNat, digits.drop whole.toNat, false, []⟩
  else ⟨negative, ['0'], List.replicate (-whole).toNat '0' ++ digits, false, []⟩

def exponentLiteral (negative : Bool) (digits : List Char) (first : Int) : Literal :=
  ⟨negative, digits.take 1, digits.drop 1, first < 0, Nat.toDigits 10 first.natAbs⟩

/-- The literal of a decimal that is written in place between two powers of ten. -/
def literal (least greatest : Int) (negative : Bool) (d : Decimal) : Literal :=
  let digits := Nat.toDigits 10 d.significand
  let first := digits.length + d.exponent - 1
  if least ≤ first ∧ first ≤ greatest then inPlaceLiteral negative digits d.exponent
  else exponentLiteral negative digits first

theorem text_inPlaceLiteral (least greatest : Int) (negative : Bool) {digits : List Char} (exponent : Int)
    (hne : digits ≠ []) :
    (inPlaceLiteral negative digits exponent).text =
      (if negative then ['-'] else []) ++ (documentLayout least greatest).inPlaceText digits exponent := by
  unfold inPlaceLiteral inPlaceText
  have hlength : 0 < digits.length := List.length_pos_iff.2 hne
  dsimp only
  split
  · simp [Literal.text, documentLayout]
  · split
    · have hdrop : digits.drop (digits.length + exponent).toNat ≠ [] := by
        rw [Ne, List.drop_eq_nil_iff]
        omega
      simp [Literal.text, hdrop]
    · simp [Literal.text, hne]

theorem text_exponentLiteral (negative : Bool) (digits : List Char) (first : Int) :
    (exponentLiteral negative digits first).text =
      (if negative then ['-'] else []) ++ exponentText digits first := by
  have hexponent : Nat.toDigits 10 first.natAbs ≠ [] := Nat.toDigits_ne_nil
  simp [exponentLiteral, exponentText, Literal.text, hexponent]

theorem text_literal (least greatest : Int) (negative : Bool) (d : Decimal) :
    (literal least greatest negative d).text =
      (if negative then ['-'] else []) ++ (documentLayout least greatest).decimalText d := by
  unfold literal decimalText
  dsimp only [documentLayout]
  split
  · exact text_inPlaceLiteral least greatest negative d.exponent Nat.toDigits_ne_nil
  · exact text_exponentLiteral ..

theorem isWhole_inPlaceLiteral (negative : Bool) {digits : List Char} (exponent : Int) (hne : digits ≠ []) :
    (inPlaceLiteral negative digits exponent).isWhole = false := by
  have hlength : 0 < digits.length := List.length_pos_iff.2 hne
  unfold inPlaceLiteral Literal.isWhole
  dsimp only
  split
  · rfl
  · split
    · simp
      omega
    · simp [hne]

theorem isWhole_exponentLiteral (negative : Bool) (digits : List Char) (first : Int) :
    (exponentLiteral negative digits first).isWhole = false := by
  have hexponent : (Nat.toDigits 10 first.natAbs).isEmpty = false :=
    List.isEmpty_eq_false_iff.2 Nat.toDigits_ne_nil
  rw [exponentLiteral, Literal.isWhole, hexponent, Bool.and_false]

theorem isWritable_inPlaceLiteral {negative : Bool} {digits : List Char} {exponent : Int} (hdigits : IsDigits digits)
    (hne : digits ≠ []) (hzero : ∀ ds, digits = '0' :: ds → ds = [] ∧ exponent = 0) :
    (inPlaceLiteral negative digits exponent).IsWritable := by
  have hzeros : ∀ n, IsDigits (List.replicate n '0') := fun n c hc => by
    rw [(List.mem_replicate.1 hc).2]
    decide
  have hlone : IsDigits ['0'] := hzeros 1
  have hnone : IsDigits [] := hzeros 0
  obtain ⟨c, cs, rfl⟩ := List.exists_cons_of_ne_nil hne
  unfold inPlaceLiteral
  dsimp only
  split
  · refine ⟨fun c hc => ?_, hlone, hnone, by simp, ?_, fun _ => rfl⟩
    · rcases List.mem_append.1 hc with hc | hc
      · exact hdigits c hc
      · exact hzeros _ c hc
    · intro ds hds
      obtain ⟨hc, hrest⟩ := List.cons.inj hds
      obtain ⟨hcs, hexponent⟩ := hzero cs (by rw [hc])
      rw [← hrest, hcs, hexponent]
      rfl
  · next hexponent =>
    split
    · next hwhole =>
      obtain ⟨n, hn⟩ := Nat.exists_eq_succ_of_ne_zero (show ((c :: cs).length + exponent).toNat ≠ 0 by omega)
      refine ⟨fun c hc => hdigits c (List.mem_of_mem_take hc), fun c hc => hdigits c (List.mem_of_mem_drop hc),
        hnone, ?_, fun ds hds => ?_, fun _ => rfl⟩
      · rw [hn, List.take_succ_cons]
        exact List.cons_ne_nil c _
      · rw [hn, List.take_succ_cons] at hds
        have := (hzero cs (by rw [(List.cons.inj hds).1])).2
        omega
    · refine ⟨hlone, fun c hc => ?_, hnone, by simp, fun ds hds => (List.cons.inj hds).2.symm, fun _ => rfl⟩
      rcases List.mem_append.1 hc with hc | hc
      · exact hzeros _ c hc
      · exact hdigits c hc

theorem isWritable_exponentLiteral {negative : Bool} {digits : List Char} (hdigits : IsDigits digits)
    (hne : digits ≠ []) (first : Int) : (exponentLiteral negative digits first).IsWritable := by
  obtain ⟨c, cs, rfl⟩ := List.exists_cons_of_ne_nil hne
  exact ⟨fun c hc => hdigits c (List.mem_of_mem_take hc), fun c hc => hdigits c (List.mem_of_mem_drop hc),
    isDigits_toDigits _, List.cons_ne_nil c [], fun ds hds => (List.cons.inj hds).2.symm,
    fun hnone => absurd hnone Nat.toDigits_ne_nil⟩

theorem isWritable_literal {least greatest : Int} {negative : Bool} {d : Decimal} (hd : d.significand ≠ 0) :
    (literal least greatest negative d).IsWritable := by
  unfold literal
  dsimp only
  split
  · refine isWritable_inPlaceLiteral (isDigits_toDigits _) Nat.toDigits_ne_nil fun ds hds => ?_
    have hvalue := digitsValue_toDigits d.significand
    rw [hds, leadingZero_toDigits hds] at hvalue
    exact absurd hvalue.symm hd
  · exact isWritable_exponentLiteral (isDigits_toDigits _) Nat.toDigits_ne_nil _

end DecimalLayout

/-! ## Binary numbers -/

namespace Binary

variable {f : BinaryFormat} {least greatest : Int}

def written (least greatest : Int) : Binary f → Literal
  | nan => .ofInt 0
  | number negative rank =>
    if rank.val = 0 then DecimalLayout.inPlaceLiteral negative ['0'] 0
    else DecimalLayout.literal least greatest negative (.shortest f .even rank)

theorem text_written {x : Binary f} (hx : x.isFinite = true) :
    (x.written least greatest).text = (documentLayout least greatest).text x := by
  cases x with
  | nan => cases hx
  | number negative rank =>
    have hrank : rank.val ≠ f.infinity := (of_decide_eq_true hx).ne
    unfold written DecimalLayout.text
    dsimp only
    rw [if_neg hrank]
    split
    · exact DecimalLayout.text_inPlaceLiteral least greatest negative 0 (List.cons_ne_nil '0' [])
    · exact DecimalLayout.text_literal least greatest negative _

theorem isWritable_written (hf : f.IsFine) (x : Binary f) : (x.written least greatest).IsWritable := by
  cases x with
  | nan => exact Literal.isWritable_ofInt 0
  | number negative rank =>
    unfold written
    dsimp only
    split
    · refine DecimalLayout.isWritable_inPlaceLiteral ?_ (List.cons_ne_nil '0' []) fun ds hds => ⟨?_, rfl⟩
      · exact isDigits_toDigits 0
      · exact (List.cons.inj hds).2.symm
    · next hzero =>
      exact DecimalLayout.isWritable_literal (Decimal.significand_shortest_pos hf (Nat.pos_of_ne_zero hzero)).ne'

/-- A finite number is never written as an integer. -/
theorem isWhole_written {x : Binary f} (hx : x.isFinite = true) : (x.written least greatest).isWhole = false := by
  cases x with
  | nan => cases hx
  | number negative rank =>
    unfold written
    dsimp only
    split
    · exact DecimalLayout.isWhole_inPlaceLiteral negative 0 (List.cons_ne_nil '0' [])
    · unfold DecimalLayout.literal
      dsimp only
      split
      · exact DecimalLayout.isWhole_inPlaceLiteral negative _ Nat.toDigits_ne_nil
      · exact DecimalLayout.isWhole_exponentLiteral ..

end Binary

end SettingsRelay
