import SettingsRelay.Document.Token

/-!
# Quoted texts

A quoted text is read as the text that was quoted, whatever its characters are: those that cannot
stand between quotes are escaped, and each escape is read as its character.
-/

namespace SettingsRelay

theorem hexDigits?_control : ∀ n < 0x20,
    hexDigits? '0' '0' (n / 16).digitChar (n % 16).digitChar = some n := by
  decide

theorem unicodeEscape_control {c : Char} (hc : c.toNat < 0x20) (rest : List Char) :
    unicodeEscape ('0' :: '0' :: (c.toNat / 16).digitChar :: (c.toNat % 16).digitChar :: rest) = .ok (c, rest) := by
  have hunit : codeUnit ('0' :: '0' :: (c.toNat / 16).digitChar :: (c.toNat % 16).digitChar :: rest) =
      .ok (c.toNat, rest) := by
    rw [codeUnit, hexDigits?_control c.toNat hc]
  have hlow : ¬(0xdc00 ≤ c.toNat ∧ c.toNat ≤ 0xdfff) := by omega
  have hhigh : ¬(0xd800 ≤ c.toNat ∧ c.toNat ≤ 0xdbff) := by omega
  rw [unicodeEscape, hunit, Reading.andThen_ok, if_neg hlow, if_neg hhigh, Char.ofNat_toNat]

/-- A character is written as itself or as an escape that is read as the character. -/
theorem escaped_cases (c : Char) :
    (escaped c = [c] ∧ c ≠ '"' ∧ c ≠ '\\' ∧ ¬c.toNat < 0x20) ∨
    ∃ e, escaped c = '\\' :: e ∧ ∀ rest, escape (e ++ rest) = .ok (c, rest) := by
  unfold escaped
  split
  · next h => exact .inr ⟨['"'], rfl, fun rest => by rw [h]; rfl⟩
  split
  · next h => exact .inr ⟨['\\'], rfl, fun rest => by rw [h]; rfl⟩
  split
  · next h => exact .inr ⟨['b'], rfl, fun rest => by rw [h]; rfl⟩
  split
  · next h => exact .inr ⟨['f'], rfl, fun rest => by rw [h]; rfl⟩
  split
  · next h => exact .inr ⟨['n'], rfl, fun rest => by rw [h]; rfl⟩
  split
  · next h => exact .inr ⟨['r'], rfl, fun rest => by rw [h]; rfl⟩
  split
  · next h => exact .inr ⟨['t'], rfl, fun rest => by rw [h]; rfl⟩
  split
  · next hcontrol => exact .inr ⟨_, rfl, fun rest => unicodeEscape_control hcontrol rest⟩
  · next hquote hslash _ _ _ _ _ hcontrol => exact .inl ⟨rfl, hquote, hslash, hcontrol⟩

theorem textBody_escape {s rest : List Char} {c : Char} (h : escape s = .ok (c, rest)) :
    textBody ('\\' :: s) = (textBody rest).andThen fun body rest => .ok (c :: body, rest) := by
  rw [textBody]
  split
  · next fault hfault => rw [h] at hfault; cases hfault
  · next hok => rw [h] at hok; cases hok; rfl

theorem textBody_plain {s : List Char} {c : Char} (hquote : c ≠ '"') (hslash : c ≠ '\\')
    (hcontrol : ¬c.toNat < 0x20) :
    textBody (c :: s) = (textBody s).andThen fun body rest => .ok (c :: body, rest) := by
  rw [textBody.eq_def]
  split
  · next h => cases h
  · next h => exact absurd (List.cons.inj h).1 hquote
  · next h => exact absurd (List.cons.inj h).1 hslash
  · next h =>
    cases h
    rw [if_neg hcontrol]

/-- What is written between quotes is read as it was before it was written. -/
theorem textBody_flatMap_escaped (s rest : List Char) :
    textBody (s.flatMap escaped ++ '"' :: rest) = .ok (s, rest) := by
  induction s with
  | nil => rw [List.flatMap_nil, List.nil_append, textBody]
  | cons c s ih =>
    rw [List.flatMap_cons, List.append_assoc]
    rcases escaped_cases c with ⟨hplain, hquote, hslash, hcontrol⟩ | ⟨e, hescape, hread⟩
    · rw [hplain, List.singleton_append, textBody_plain hquote hslash hcontrol, ih, Reading.andThen_ok]
    · rw [hescape, List.cons_append, textBody_escape (hread _), ih, Reading.andThen_ok]

end SettingsRelay
