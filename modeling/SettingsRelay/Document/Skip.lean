import SettingsRelay.Document.Token

/-!
# Passing over values

The value of a member that nobody asked for is passed over, however deep it is nested. The
brackets that are open around the current place are kept in a list, so depth costs nothing but
memory.
-/

namespace SettingsRelay

inductive Bracket where
  | list
  | object
deriving DecidableEq, Repr

/-- Passes over a scalar, whose first character is at the front. -/
def skipScalar : List Char → Reading Unit
  | [] => .error ⟨.endInValue, 0⟩
  | 'n' :: rest => keyword ['u', 'l', 'l'] rest
  | 't' :: rest => keyword ['r', 'u', 'e'] rest
  | 'f' :: rest => keyword ['a', 'l', 's', 'e'] rest
  | '"' :: rest => skipText rest
  | c :: rest =>
    if c = '-' ∨ c.isDigit then skipNumber (c :: rest)
    else .error (.inFirst .expectedValue (c :: rest))

def skipKey (s : List Char) : Reading Unit :=
  match skipBlank s with
  | [] => .error ⟨.endInObject, 0⟩
  | '"' :: rest => (skipText rest).andThen fun _ rest => colon rest
  | rest => .error (.inFirst .keyNotText rest)

theorem skipScalar_shortens {s r : List Char} (h : skipScalar s = .ok ((), r)) :
    r.length < s.length := by
  unfold skipScalar at h
  split at h
  · cases h
  iterate 3
    · have := keyword_length h
      simp only [List.length_cons]
      omega
  · have := skipText_shortens h
    simp only [List.length_cons]
    omega
  · split at h
    · exact skipNumber_shortens h
    · cases h

theorem skipKey_shortens {s r : List Char} (h : skipKey s = .ok ((), r)) :
    r.length < s.length := by
  have hb := skipBlank_length s
  unfold skipKey at h
  split at h
  · cases h
  · rename_i rest heq
    obtain ⟨_, rest', ht, h⟩ := Reading.andThen_eq_ok.1 h
    have := skipText_shortens ht
    have := colon_shortens h
    rw [heq, List.length_cons] at hb
    omega
  · cases h

/-- Passes over a scalar, over an empty list or object, or over the start of one that is not
empty, up to its first value. Gives the bracket that is now open. -/
def skipStart (s : List Char) : Reading (Option Bracket) :=
  match skipBlank s with
  | '[' :: rest =>
    match skipBlank rest with
    | [] => .error ⟨.endInList, 0⟩
    | ']' :: rest => .ok (none, rest)
    | rest => .ok (some .list, rest)
  | '{' :: rest =>
    match skipBlank rest with
    | '}' :: rest => .ok (none, rest)
    | rest => (skipKey rest).andThen fun _ rest => .ok (some .object, rest)
  | rest => (skipScalar rest).andThen fun _ rest => .ok (none, rest)

/-- Passes over what follows a value within an open bracket, up to the next value or over the
closing bracket. Gives whether there is a next value. -/
def skipSeparator (bracket : Bracket) (s : List Char) : Reading Bool :=
  match bracket, skipBlank s with
  | .list, [] => .error ⟨.endInList, 0⟩
  | .list, ',' :: rest => .ok (true, rest)
  | .list, ']' :: rest => .ok (false, rest)
  | .list, rest => .error (.inFirst .expectedCommaOrBracket rest)
  | .object, [] => .error ⟨.endInObject, 0⟩
  | .object, ',' :: rest => (skipKey rest).andThen fun _ rest => .ok (true, rest)
  | .object, '}' :: rest => .ok (false, rest)
  | .object, rest => .error (.inFirst .expectedCommaOrBrace rest)

theorem skipStart_shortens {s r : List Char} {b : Option Bracket}
    (h : skipStart s = .ok (b, r)) : r.length < s.length := by
  have hb := skipBlank_length s
  unfold skipStart at h
  split at h
  · rename_i rest heq
    have := skipBlank_length rest
    rw [heq, List.length_cons] at hb
    split at h
    · cases h
    · rename_i heq'
      simp only [Except.ok.injEq, Prod.mk.injEq] at h
      obtain ⟨_, rfl⟩ := h
      rw [heq', List.length_cons] at this
      omega
    · simp only [Except.ok.injEq, Prod.mk.injEq] at h
      obtain ⟨_, rfl⟩ := h
      omega
  · rename_i rest heq
    have := skipBlank_length rest
    rw [heq, List.length_cons] at hb
    split at h
    · rename_i heq'
      simp only [Except.ok.injEq, Prod.mk.injEq] at h
      obtain ⟨_, rfl⟩ := h
      rw [heq', List.length_cons] at this
      omega
    · obtain ⟨_, rest', hk, h⟩ := Reading.andThen_eq_ok.1 h
      have := skipKey_shortens hk
      simp only [Except.ok.injEq, Prod.mk.injEq] at h
      obtain ⟨_, rfl⟩ := h
      omega
  · obtain ⟨_, rest', hk, h⟩ := Reading.andThen_eq_ok.1 h
    have := skipScalar_shortens hk
    simp only [Except.ok.injEq, Prod.mk.injEq] at h
    obtain ⟨_, rfl⟩ := h
    omega

theorem skipSeparator_shortens {bracket : Bracket} {s r : List Char} {more : Bool}
    (h : skipSeparator bracket s = .ok (more, r)) : r.length < s.length := by
  have hb := skipBlank_length s
  unfold skipSeparator at h
  split at h
  case h_6 rest heq =>
    obtain ⟨_, rest', hk, h⟩ := Reading.andThen_eq_ok.1 h
    have := skipKey_shortens hk
    simp only [Except.ok.injEq, Prod.mk.injEq] at h
    obtain ⟨_, rfl⟩ := h
    rw [heq, List.length_cons] at hb
    omega
  all_goals
    cases h
    try
      rename_i heq
      rw [heq, List.length_cons] at hb
      omega

mutual

/-- Passes over a value and over what is left of the open brackets around it. -/
def skipValue (outer : List Bracket) (s : List Char) : Reading Unit :=
  match h : skipStart s with
  | .error fault => .error fault
  | .ok (none, rest) =>
    have := skipStart_shortens h
    skipClosing outer rest
  | .ok (some bracket, rest) =>
    have := skipStart_shortens h
    skipValue (bracket :: outer) rest
termination_by s.length

/-- Passes over what is left of the open brackets around a value. -/
def skipClosing (outer : List Bracket) (s : List Char) : Reading Unit :=
  match outer with
  | [] => .ok ((), s)
  | bracket :: outer =>
    match h : skipSeparator bracket s with
    | .error fault => .error fault
    | .ok (true, rest) =>
      have := skipSeparator_shortens h
      skipValue (bracket :: outer) rest
    | .ok (false, rest) =>
      have := skipSeparator_shortens h
      skipClosing outer rest
termination_by s.length

end

theorem skip_length (n : Nat) :
    (∀ outer s r, s.length ≤ n → skipValue outer s = .ok ((), r) → r.length < s.length) ∧
    (∀ outer s r, s.length ≤ n → skipClosing outer s = .ok ((), r) → r.length ≤ s.length) := by
  induction n with
  | zero =>
    constructor
    · intro outer s r hn h
      rw [skipValue] at h
      split at h
      · cases h
      all_goals
        have := skipStart_shortens (by assumption)
        omega
    · intro outer s r hn h
      rw [skipClosing.eq_def] at h
      split at h
      · simp only [Except.ok.injEq, Prod.mk.injEq, true_and] at h
        simp [h]
      · split at h
        · cases h
        all_goals
          have := skipSeparator_shortens (by assumption)
          omega
  | succ n ih =>
    constructor
    · intro outer s r hn h
      rw [skipValue] at h
      split at h
      · cases h
      · have := skipStart_shortens (by assumption)
        have := ih.2 _ _ _ (by omega) h
        omega
      · have := skipStart_shortens (by assumption)
        have := ih.1 _ _ _ (by omega) h
        omega
    · intro outer s r hn h
      rw [skipClosing.eq_def] at h
      split at h
      · simp only [Except.ok.injEq, Prod.mk.injEq, true_and] at h
        simp [h]
      · split at h
        · cases h
        · have := skipSeparator_shortens (by assumption)
          have := ih.1 _ _ _ (by omega) h
          omega
        · have := skipSeparator_shortens (by assumption)
          have := ih.2 _ _ _ (by omega) h
          omega

theorem skipValue_shortens {outer : List Bracket} {s r : List Char}
    (h : skipValue outer s = .ok ((), r)) : r.length < s.length :=
  (skip_length s.length).1 outer s r (Nat.le_refl _) h

end SettingsRelay
