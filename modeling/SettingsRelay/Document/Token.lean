import SettingsRelay.Document.Number
import SettingsRelay.Document.Text

/-!
# The start of a value

Reading a value begins with its token, whatever value is wanted: a scalar is read whole, and of a
list or an object the bracket is seen and left unread.
-/

namespace SettingsRelay

/-- The characters that may stand between tokens. -/
def isBlank (c : Char) : Bool := c = ' ' || c = '\t' || c = '\n' || c = '\r'

def skipBlank (s : List Char) : List Char := s.dropWhile isBlank

/-- Reads the given characters, the rest of a keyword. -/
def keyword : List Char → List Char → Reading Unit
  | [], s => .ok ((), s)
  | _ :: _, [] => .error ⟨.endInValue, 0⟩
  | c :: cs, x :: s => if x = c then keyword cs s else .error (.inFirst .expectedKeyword (x :: s))

/-- Reads the token at the front of a text, after blanks. -/
def token (s : List Char) : Reading Token :=
  match skipBlank s with
  | [] => .error ⟨.endInValue, 0⟩
  | 'n' :: rest => (keyword ['u', 'l', 'l'] rest).andThen fun _ rest => .ok (.null, rest)
  | 't' :: rest => (keyword ['r', 'u', 'e'] rest).andThen fun _ rest => .ok (.flag true, rest)
  | 'f' :: rest => (keyword ['a', 'l', 's', 'e'] rest).andThen fun _ rest => .ok (.flag false, rest)
  | '"' :: rest => (textBody rest).andThen fun body rest => .ok (.text (String.ofList body), rest)
  | '[' :: rest => .ok (.list, '[' :: rest)
  | '{' :: rest => .ok (.object, '{' :: rest)
  | c :: rest =>
    if c = '-' ∨ c.isDigit then number (c :: rest)
    else .error (.inFirst .expectedValue (c :: rest))

def colon (s : List Char) : Reading Unit :=
  match skipBlank s with
  | [] => .error ⟨.endInObject, 0⟩
  | ':' :: rest => .ok ((), rest)
  | rest => .error (.inFirst .expectedColon rest)

theorem skipBlank_length (s : List Char) : (skipBlank s).length ≤ s.length :=
  (List.dropWhile_sublist _).length_le

theorem keyword_length {cs s r : List Char} (h : keyword cs s = .ok ((), r)) :
    r.length ≤ s.length := by
  fun_induction keyword cs s with
  | case1 s =>
    simp only [Except.ok.injEq, Prod.mk.injEq, true_and] at h
    simp [h]
  | case2 => cases h
  | case3 c cs s ih =>
    have := ih h
    simp only [List.length_cons]
    omega
  | case4 => cases h

theorem colon_shortens {s r : List Char} (h : colon s = .ok ((), r)) : r.length < s.length := by
  have := skipBlank_length s
  unfold colon at h
  split at h
  · cases h
  · rename_i rest heq
    simp only [Except.ok.injEq, Prod.mk.injEq, true_and] at h
    subst h
    rw [heq, List.length_cons] at this
    omega
  · cases h

/-- A scalar is read whole, so less of the text is left; a bracket is not. -/
theorem token_length {s r : List Char} {t : Token} (h : token s = .ok (t, r)) :
    r.length ≤ s.length ∧ (t ≠ .list → t ≠ .object → r.length < s.length) := by
  have hb := skipBlank_length s
  unfold token at h
  split at h
  · cases h
  iterate 3
    · rename_i rest heq
      obtain ⟨_, rest', hk, h⟩ := Reading.andThen_eq_ok.1 h
      have := keyword_length hk
      simp only [Except.ok.injEq, Prod.mk.injEq] at h
      obtain ⟨_, rfl⟩ := h
      rw [heq, List.length_cons] at hb
      exact ⟨by omega, fun _ _ => by omega⟩
  · rename_i rest heq
    obtain ⟨_, rest', hk, h⟩ := Reading.andThen_eq_ok.1 h
    have := textBody_shortens hk
    simp only [Except.ok.injEq, Prod.mk.injEq] at h
    obtain ⟨_, rfl⟩ := h
    rw [heq, List.length_cons] at hb
    exact ⟨by omega, fun _ _ => by omega⟩
  iterate 2
    · rename_i rest heq
      simp only [Except.ok.injEq, Prod.mk.injEq] at h
      obtain ⟨rfl, rfl⟩ := h
      rw [heq] at hb
      exact ⟨hb, by simp⟩
  · rename_i c rest _ _ _ _ _ _ heq
    split at h
    · have := number_shortens h
      rw [heq] at hb
      exact ⟨by omega, fun _ _ => by omega⟩
    · cases h

end SettingsRelay
