import SettingsRelay.Document.Fault

/-!
# Texts in documents

A text stands between quotes. Quotes, backslashes and control characters in it are written as
escapes; reading also takes escapes for characters that need none, and two escaped surrogate
halves for one character. A text whose value nobody wants is passed over with fewer checks.
-/

namespace SettingsRelay

/-! ## Writing -/

/-- The characters that stand for one character of a text. -/
def escaped (c : Char) : List Char :=
  if c = '"' then ['\\', '"']
  else if c = '\\' then ['\\', '\\']
  else if c = '\x08' then ['\\', 'b']
  else if c = '\x0c' then ['\\', 'f']
  else if c = '\n' then ['\\', 'n']
  else if c = '\r' then ['\\', 'r']
  else if c = '\t' then ['\\', 't']
  else if c.toNat < 0x20 then
    ['\\', 'u', '0', '0', (c.toNat / 16).digitChar, (c.toNat % 16).digitChar]
  else [c]

def quoted (s : String) : List Char :=
  '"' :: s.toList.flatMap escaped ++ ['"']

/-! ## Reading -/

def hexDigit? (c : Char) : Option Nat :=
  if '0' ≤ c ∧ c ≤ '9' then some (c.toNat - '0'.toNat)
  else if 'a' ≤ c ∧ c ≤ 'f' then some (c.toNat - 'a'.toNat + 10)
  else if 'A' ≤ c ∧ c ≤ 'F' then some (c.toNat - 'A'.toNat + 10)
  else none

def hexDigits? (a b c d : Char) : Option Nat := do
  return (((← hexDigit? a) * 16 + (← hexDigit? b)) * 16 + (← hexDigit? c)) * 16 + (← hexDigit? d)

/-- What is wrong where a code unit is due: four bytes are taken before they are looked at. -/
def codeUnitFault (s : List Char) : Fault :=
  if byteCount s < 4 then ⟨.endInText, 0⟩ else ⟨.invalidEscape, byteCount s - 4⟩

def codeUnit (s : List Char) : Reading Nat :=
  match s with
  | a :: b :: c :: d :: rest =>
    match hexDigits? a b c d with
    | some n => .ok (n, rest)
    | none => .error (codeUnitFault s)
  | _ => .error (codeUnitFault s)

/-- Reads the second half of a surrogate pair, whose first half was `high`. -/
def surrogatePair (high : Nat) : List Char → Reading Char
  | [] => .error ⟨.endInText, 0⟩
  | '\\' :: 'u' :: rest =>
    (codeUnit rest).andThen fun low rest =>
      if 0xdc00 ≤ low ∧ low ≤ 0xdfff then
        .ok (Char.ofNat (0x10000 + (high - 0xd800) * 0x400 + (low - 0xdc00)), rest)
      else .error (.before .loneSurrogate rest)
  | '\\' :: rest =>
    .error (if rest = [] then ⟨.endInText, 0⟩ else .inFirst .unfinishedSurrogate rest)
  | rest => .error (.inFirst .unfinishedSurrogate rest)

/-- Reads the digits of an escaped code point, after the letter. -/
def unicodeEscape (s : List Char) : Reading Char :=
  (codeUnit s).andThen fun unit rest =>
    if 0xdc00 ≤ unit ∧ unit ≤ 0xdfff then .error (.before .loneSurrogate rest)
    else if 0xd800 ≤ unit ∧ unit ≤ 0xdbff then surrogatePair unit rest
    else .ok (Char.ofNat unit, rest)

def simpleEscape? : Char → Option Char
  | '"' => some '"'
  | '\\' => some '\\'
  | '/' => some '/'
  | 'b' => some '\x08'
  | 'f' => some '\x0c'
  | 'n' => some '\n'
  | 'r' => some '\r'
  | 't' => some '\t'
  | _ => none

def escape : List Char → Reading Char
  | [] => .error ⟨.endInText, 0⟩
  | 'u' :: rest => unicodeEscape rest
  | c :: rest =>
    match simpleEscape? c with
    | some x => .ok (x, rest)
    | none => .error (.inFirst .invalidEscape (c :: rest))

theorem codeUnit_shortens {s r : List Char} {n : Nat} (h : codeUnit s = .ok (n, r)) :
    r.length < s.length := by
  unfold codeUnit at h
  split at h
  · split at h
    · simp only [Except.ok.injEq, Prod.mk.injEq] at h
      obtain ⟨_, rfl⟩ := h
      simp only [List.length_cons]
      omega
    · cases h
  · cases h

theorem surrogatePair_shortens {high : Nat} {s r : List Char} {c : Char}
    (h : surrogatePair high s = .ok (c, r)) : r.length < s.length := by
  unfold surrogatePair at h
  split at h
  · cases h
  · obtain ⟨low, rest, hu, h⟩ := Reading.andThen_eq_ok.1 h
    have := codeUnit_shortens hu
    split at h
    · simp only [Except.ok.injEq, Prod.mk.injEq] at h
      obtain ⟨_, rfl⟩ := h
      simp only [List.length_cons]
      omega
    · cases h
  · cases h
  · cases h

theorem escape_shortens {s r : List Char} {c : Char} (h : escape s = .ok (c, r)) :
    r.length < s.length := by
  unfold escape at h
  split at h
  · cases h
  · obtain ⟨unit, rest, hu, h⟩ := Reading.andThen_eq_ok.1 h
    have := codeUnit_shortens hu
    simp only [List.length_cons]
    split at h
    · cases h
    · split at h
      · have := surrogatePair_shortens h
        omega
      · simp only [Except.ok.injEq, Prod.mk.injEq] at h
        obtain ⟨_, rfl⟩ := h
        omega
  · split at h
    · simp only [Except.ok.injEq, Prod.mk.injEq] at h
      obtain ⟨_, rfl⟩ := h
      simp
    · cases h

/-- Reads a text after its opening quote, up to and with the closing one. -/
def textBody (s : List Char) : Reading (List Char) :=
  match s with
  | [] => .error ⟨.endInText, 0⟩
  | '"' :: rest => .ok ([], rest)
  | '\\' :: rest =>
    match h : escape rest with
    | .error fault => .error fault
    | .ok (c, rest') =>
      have := escape_shortens h
      (textBody rest').andThen fun body rest'' => .ok (c :: body, rest'')
  | c :: rest =>
    if c.toNat < 0x20 then .error (.inFirst .controlCharacter (c :: rest))
    else (textBody rest).andThen fun body rest' => .ok (c :: body, rest')
termination_by s.length
decreasing_by all_goals (simp only [List.length_cons]; omega)

theorem textBody_shortens {s body r : List Char} (h : textBody s = .ok (body, r)) :
    r.length < s.length := by
  fun_induction textBody s generalizing body r with
  | case1 => cases h
  | case2 rest => simp at h; simp [h]
  | case3 => cases h
  | case4 rest c rest' he hs ih =>
    obtain ⟨body', rest'', hb, h⟩ := Reading.andThen_eq_ok.1 h
    have := ih hb
    simp only [Except.ok.injEq, Prod.mk.injEq] at h
    obtain ⟨_, rfl⟩ := h
    simp only [List.length_cons]
    omega
  | case5 => cases h
  | case6 c rest _ _ _ ih =>
    obtain ⟨body', rest'', hb, h⟩ := Reading.andThen_eq_ok.1 h
    have := ih hb
    simp only [Except.ok.injEq, Prod.mk.injEq] at h
    obtain ⟨_, rfl⟩ := h
    simp only [List.length_cons]
    omega

/-! ## Passing over -/

/-- Passes over an escape after its backslash. A code unit may be any. -/
def skipEscape : List Char → Reading Unit
  | [] => .error ⟨.endInText, 0⟩
  | 'u' :: rest => (codeUnit rest).andThen fun _ rest => .ok ((), rest)
  | c :: rest =>
    match simpleEscape? c with
    | some _ => .ok ((), rest)
    | none => .error (.inFirst .invalidEscape (c :: rest))

theorem skipEscape_shortens {s r : List Char} (h : skipEscape s = .ok ((), r)) :
    r.length < s.length := by
  unfold skipEscape at h
  split at h
  · cases h
  · obtain ⟨unit, rest, hu, h⟩ := Reading.andThen_eq_ok.1 h
    have := codeUnit_shortens hu
    simp only [Except.ok.injEq, Prod.mk.injEq, true_and] at h
    subst h
    simp only [List.length_cons]
    omega
  · split at h
    · simp only [Except.ok.injEq, Prod.mk.injEq, true_and] at h
      simp [← h]
    · cases h

/-- Passes over a text after its opening quote, up to and with the closing one. -/
def skipText (s : List Char) : Reading Unit :=
  match s with
  | [] => .error ⟨.endInText, 0⟩
  | '"' :: rest => .ok ((), rest)
  | '\\' :: rest =>
    match h : skipEscape rest with
    | .error fault => .error fault
    | .ok ((), rest') =>
      have := skipEscape_shortens h
      skipText rest'
  | c :: rest =>
    if c.toNat < 0x20 then .error (.before .controlCharacter (c :: rest)) else skipText rest
termination_by s.length
decreasing_by all_goals (simp only [List.length_cons]; omega)

theorem skipText_shortens {s r : List Char} (h : skipText s = .ok ((), r)) :
    r.length < s.length := by
  fun_induction skipText s generalizing r with
  | case1 => cases h
  | case2 rest => simp at h; simp [h]
  | case3 => cases h
  | case4 rest rest' he hs ih =>
    have := ih h
    simp only [List.length_cons]
    omega
  | case5 => cases h
  | case6 c rest _ _ _ ih =>
    have := ih h
    simp only [List.length_cons]
    omega

end SettingsRelay
