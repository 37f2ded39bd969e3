import SettingsRelay.Proofs.Locality

/-!
# The grammar of documents

What a well-formed value looks like, and what a text between quotes says. The two readers of texts agree with
this: one takes what is said, and the other passes over anything that is well formed.
-/

namespace SettingsRelay

/-! ## Texts -/

def IsHexDigit (n : Nat) (c : Char) : Prop :=
  "0123456789abcdef".toList[n]? = some c ∨ "0123456789ABCDEF".toList[n]? = some c

/-- Four hexadecimal digits. -/
inductive IsCodeUnit : Nat → List Char → Prop where
  | digits {n₃ n₂ n₁ n₀ : Nat} {c₃ c₂ c₁ c₀ : Char} (h₃ : IsHexDigit n₃ c₃) (h₂ : IsHexDigit n₂ c₂)
      (h₁ : IsHexDigit n₁ c₁) (h₀ : IsHexDigit n₀ c₀) :
      IsCodeUnit (n₃ * 16 ^ 3 + n₂ * 16 ^ 2 + n₁ * 16 + n₀) [c₃, c₂, c₁, c₀]

def simpleEscapes : List (Char × Char) :=
  [('"', '"'), ('\\', '\\'), ('/', '/'), ('b', '\x08'), ('f', '\x0c'), ('n', '\n'), ('r', '\r'), ('t', '\t')]

/-- What stands between quotes, and the characters that it says. -/
inductive Spells : List Char → List Char → Prop where
  | nil : Spells [] []
  | plain {c : Char} {s t : List Char} (quote : c ≠ '"') (slash : c ≠ '\\') (control : 0x20 ≤ c.toNat)
      (h : Spells s t) : Spells (c :: s) (c :: t)
  | escape {e c : Char} {s t : List Char} (he : (e, c) ∈ simpleEscapes) (h : Spells s t) :
      Spells ('\\' :: e :: s) (c :: t)
  | unit {n : Nat} {u s t : List Char} (hu : IsCodeUnit n u) (hn : n < 0xd800 ∨ 0xdfff < n) (h : Spells s t) :
      Spells ('\\' :: 'u' :: (u ++ s)) (Char.ofNat n :: t)
  /-- Two halves for a character outside the basic plane. -/
  | pair {high low : Nat} {u v s t : List Char} (hu : IsCodeUnit high u) (hv : IsCodeUnit low v)
      (hhigh : 0xd800 ≤ high ∧ high ≤ 0xdbff) (hlow : 0xdc00 ≤ low ∧ low ≤ 0xdfff) (h : Spells s t) :
      Spells ('\\' :: 'u' :: (u ++ '\\' :: 'u' :: (v ++ s)))
        (Char.ofNat (0x10000 + (high - 0xd800) * 0x400 + (low - 0xdc00)) :: t)

inductive IsText : List Char → Prop where
  | nil : IsText []
  | plain {c : Char} {s : List Char} (quote : c ≠ '"') (slash : c ≠ '\\') (control : 0x20 ≤ c.toNat)
      (h : IsText s) : IsText (c :: s)
  | escape {e c : Char} {s : List Char} (he : (e, c) ∈ simpleEscapes) (h : IsText s) : IsText ('\\' :: e :: s)
  | unit {n : Nat} {u s : List Char} (hu : IsCodeUnit n u) (h : IsText s) : IsText ('\\' :: 'u' :: (u ++ s))

theorem hexDigit?_of_isHexDigit {n : Nat} {c : Char} (h : IsHexDigit n c) : hexDigit? c = some n := by
  have hlower : ∀ i : Fin 16, hexDigit? ("0123456789abcdef".toList[i]) = some i := by decide
  have hupper : ∀ i : Fin 16, hexDigit? ("0123456789ABCDEF".toList[i]) = some i := by decide
  rcases h with h | h
  · obtain ⟨hn, rfl⟩ := List.getElem?_eq_some_iff.1 h
    exact hlower ⟨n, hn⟩
  · obtain ⟨hn, rfl⟩ := List.getElem?_eq_some_iff.1 h
    exact hupper ⟨n, hn⟩

theorem codeUnit_of_isCodeUnit {n : Nat} {u : List Char} (h : IsCodeUnit n u) (rest : List Char) :
    codeUnit (u ++ rest) = .ok (n, rest) := by
  cases h with
  | @digits n₃ n₂ n₁ n₀ c₃ c₂ c₁ c₀ h₃ h₂ h₁ h₀ =>
    have hvalue : ((n₃ * 16 + n₂) * 16 + n₁) * 16 + n₀ = n₃ * 16 ^ 3 + n₂ * 16 ^ 2 + n₁ * 16 + n₀ := by omega
    have hdigits : hexDigits? c₃ c₂ c₁ c₀ = some (n₃ * 16 ^ 3 + n₂ * 16 ^ 2 + n₁ * 16 + n₀) := by
      rw [← hvalue, hexDigits?, hexDigit?_of_isHexDigit h₃, hexDigit?_of_isHexDigit h₂,
        hexDigit?_of_isHexDigit h₁, hexDigit?_of_isHexDigit h₀]
      rfl
    simp only [List.cons_append, List.nil_append, codeUnit, hdigits]

theorem simpleEscape?_of_mem {e c : Char} (h : (e, c) ∈ simpleEscapes) : simpleEscape? e = some c := by
  have hall : ∀ p ∈ simpleEscapes, simpleEscape? p.1 = some p.2 := by decide
  exact hall (e, c) h

theorem Spells.textBody {s t : List Char} (h : Spells s t) (rest : List Char) :
    textBody (s ++ '"' :: rest) = .ok (t, rest) := by
  induction h with
  | nil => rw [List.nil_append, SettingsRelay.textBody]
  | plain quote slash control _ ih =>
    rw [List.cons_append, textBody_plain quote slash (Nat.not_lt.2 control), ih, Reading.andThen_ok]
  | escape he _ ih =>
    rw [List.cons_append, List.cons_append, textBody_escape (escape_of_simple (simpleEscape?_of_mem he) _), ih,
      Reading.andThen_ok]
  | @unit n u s t hu hn _ ih =>
    have hescape : SettingsRelay.escape ('u' :: (u ++ (s ++ '"' :: rest))) = .ok (Char.ofNat n, s ++ '"' :: rest) := by
      change unicodeEscape _ = _
      rw [unicodeEscape, codeUnit_of_isCodeUnit hu, Reading.andThen_ok, if_neg (by omega), if_neg (by omega)]
    rw [List.cons_append, List.cons_append, List.append_assoc, textBody_escape hescape, ih, Reading.andThen_ok]
  | @pair high low u v s t hu hv hhigh hlow _ ih =>
    have hescape : SettingsRelay.escape ('u' :: (u ++ '\\' :: 'u' :: (v ++ (s ++ '"' :: rest)))) =
        .ok (Char.ofNat (0x10000 + (high - 0xd800) * 0x400 + (low - 0xdc00)), s ++ '"' :: rest) := by
      change unicodeEscape _ = _
      rw [unicodeEscape, codeUnit_of_isCodeUnit hu, Reading.andThen_ok, if_neg (by omega), if_pos hhigh,
        surrogatePair, codeUnit_of_isCodeUnit hv, Reading.andThen_ok, if_pos hlow]
    simp only [List.cons_append, List.append_assoc]
    rw [textBody_escape hescape, ih, Reading.andThen_ok]

theorem Spells.of_plain {s : List Char} (h : s.all fun c => c ≠ '"' ∧ c ≠ '\\' ∧ 0x20 ≤ c.toNat) : Spells s s := by
  induction s with
  | nil => exact .nil
  | cons c s ih =>
    rw [List.all_cons, Bool.and_eq_true, decide_eq_true_eq] at h
    obtain ⟨⟨hquote, hslash, hcontrol⟩, hrest⟩ := h
    exact .plain hquote hslash hcontrol (ih hrest)

theorem skipText_escape {s rest : List Char} (h : skipEscape s = .ok ((), rest)) :
    skipText ('\\' :: s) = skipText rest := by
  rw [skipText]
  split
  · next hfault => rw [h] at hfault; cases hfault
  · next hok => rw [h] at hok; cases hok; rfl

theorem skipText_plain {s : List Char} {c : Char} (hquote : c ≠ '"') (hslash : c ≠ '\\')
    (hcontrol : ¬c.toNat < 0x20) : skipText (c :: s) = skipText s := by
  rw [skipText.eq_def]
  split
  · next h => cases h
  · next h => exact absurd (List.cons.inj h).1 hquote
  · next h => exact absurd (List.cons.inj h).1 hslash
  · next h =>
    cases h
    rw [if_neg hcontrol]

theorem skipEscape_of_simple {c x : Char} (h : simpleEscape? c = some x) (s : List Char) :
    skipEscape (c :: s) = .ok ((), s) := by
  unfold skipEscape
  split
  · next heq => cases heq
  · next heq =>
    cases heq
    cases h
  · next heq =>
    cases heq
    rw [h]

theorem IsText.skipText {s : List Char} (h : IsText s) (rest : List Char) :
    skipText (s ++ '"' :: rest) = .ok ((), rest) := by
  induction h with
  | nil => rw [List.nil_append, SettingsRelay.skipText]
  | plain quote slash control _ ih =>
    rw [List.cons_append, skipText_plain quote slash (Nat.not_lt.2 control), ih]
  | escape he _ ih =>
    rw [List.cons_append, List.cons_append, skipText_escape (skipEscape_of_simple (simpleEscape?_of_mem he) _), ih]
  | @unit n u s hu _ ih =>
    have hescape : skipEscape ('u' :: (u ++ (s ++ '"' :: rest))) = .ok ((), s ++ '"' :: rest) := by
      change (codeUnit _).andThen _ = _
      rw [codeUnit_of_isCodeUnit hu, Reading.andThen_ok]
    rw [List.cons_append, List.cons_append, List.append_assoc, skipText_escape hescape, ih]

/-! ## Numerals -/

/-- Digits before a point. A zero is the first only if it is the only one. -/
structure IsWhole (ds : List Char) : Prop where
  digits : IsDigits ds
  nonempty : ds ≠ []
  zero : ∀ rest, ds = '0' :: rest → rest = []

inductive IsFraction : List Char → Prop where
  | none : IsFraction []
  | digits {ds : List Char} (h : IsDigits ds) (hne : ds ≠ []) : IsFraction ('.' :: ds)

inductive IsExponent : List Char → Prop where
  | none : IsExponent []
  | unsigned {e : Char} {ds : List Char} (he : e = 'e' ∨ e = 'E') (h : IsDigits ds) (hne : ds ≠ []) :
      IsExponent (e :: ds)
  | signed {e sign : Char} {ds : List Char} (he : e = 'e' ∨ e = 'E') (hsign : sign = '+' ∨ sign = '-')
      (h : IsDigits ds) (hne : ds ≠ []) : IsExponent (e :: sign :: ds)

inductive IsNumeral : List Char → Prop where
  | positive {whole fraction exponent : List Char} (hwhole : IsWhole whole) (hfraction : IsFraction fraction)
      (hexponent : IsExponent exponent) : IsNumeral (whole ++ (fraction ++ exponent))
  | negative {whole fraction exponent : List Char} (hwhole : IsWhole whole) (hfraction : IsFraction fraction)
      (hexponent : IsExponent exponent) : IsNumeral ('-' :: (whole ++ (fraction ++ exponent)))

theorem IsDigits.head_ne {c : Char} {ds : List Char} (h : IsDigits (c :: ds)) {x : Char} (hx : x.isDigit = false) :
    c ≠ x := by
  rintro rfl
  have hc := h c List.mem_cons_self
  rw [hx] at hc
  cases hc

theorem IsExponent.head? {exponent rest : List Char} (h : IsExponent exponent) (hrest : EndsNumber rest) :
    ∀ c ∈ (exponent ++ rest).head?, ¬c.isDigit ∧ c ≠ '.' := by
  cases h with
  | none => exact fun c hc => ⟨(hrest c hc).1, (hrest c hc).2.1⟩
  | unsigned he | signed he =>
    rintro c ⟨⟩
    rcases he with rfl | rfl <;> decide

theorem IsFraction.head? {fraction rest : List Char} (h : IsFraction fraction)
    (hrest : ∀ c ∈ rest.head?, ¬c.isDigit) : ∀ c ∈ (fraction ++ rest).head?, ¬c.isDigit := by
  cases h with
  | none => exact hrest
  | digits =>
    rintro c ⟨⟩
    decide

theorem IsFraction.read (early : Cause) {fraction rest : List Char} (h : IsFraction fraction)
    (hrest : ∀ c ∈ rest.head?, ¬c.isDigit ∧ c ≠ '.') :
    ∃ ds, fractionPart early (fraction ++ rest) = .ok (ds, rest) := by
  cases h with
  | none =>
    have hnone : IsDigits [] := by simp [IsDigits]
    have hread : fractionPart early ([] ++ rest) = .ok ([], rest) := fractionPart_append hnone hrest
    exact ⟨[], hread⟩
  | @digits ds h hne =>
    have hread : fractionPart early ((if ds = [] then [] else '.' :: ds) ++ rest) = .ok (ds, rest) :=
      fractionPart_append h hrest
    rw [if_neg hne] at hread
    exact ⟨ds, hread⟩

theorem IsExponent.read (early : Cause) {exponent rest : List Char} (h : IsExponent exponent)
    (hrest : EndsNumber rest) : ∃ x, exponentPart early (exponent ++ rest) = .ok (x, rest) := by
  have hmarked : ∀ {e : Char} {s : List Char} {negative : Bool} {ds : List Char}, e = 'e' ∨ e = 'E' →
      IsDigits ds → ds ≠ [] → exponentSign (s ++ rest) = (negative, ds ++ rest) →
      exponentPart early (e :: s ++ rest) = .ok ((negative, ds), rest) := by
    intro e s negative ds he hds hne hsign
    rw [List.cons_append, exponentPart, if_pos he, hsign]
    dsimp only
    rw [digitRun_append hds hrest.no_digit, if_neg hne]
  cases h with
  | none =>
    have hnone : IsDigits [] := by simp [IsDigits]
    have hread : exponentPart early ([] ++ rest) = .ok ((false, []), rest) :=
      exponentPart_append hnone (fun _ => rfl) hrest
    exact ⟨_, hread⟩
  | @unsigned e ds he h hne =>
    refine ⟨(false, ds), hmarked he h hne ?_⟩
    obtain ⟨c, ds, rfl⟩ := List.exists_cons_of_ne_nil hne
    exact exponentSign_of_ne (h.head_ne (by decide)) (h.head_ne (by decide)) _
  | @signed e sign ds he hsign h hne =>
    rcases hsign with rfl | rfl
    · exact ⟨(false, ds), hmarked he h hne rfl⟩
    · exact ⟨(true, ds), hmarked he h hne rfl⟩

theorem IsNumeral.read (early : Cause) {s rest : List Char} (h : IsNumeral s) (hrest : EndsNumber rest) :
    ∃ l, literal early (s ++ rest) = .ok (l, rest) := by
  have hunsigned : ∀ {whole fraction exponent : List Char} (negative : Bool), IsWhole whole → IsFraction fraction →
      IsExponent exponent →
      ∃ l, unsignedLiteral early negative (whole ++ (fraction ++ exponent) ++ rest) = .ok (l, rest) := by
    intro whole fraction exponent negative hwhole hfraction hexponent
    have hlast := hexponent.head? hrest
    obtain ⟨ds, hfractionRead⟩ := hfraction.read early hlast
    obtain ⟨⟨exponentNegative, es⟩, hexponentRead⟩ := hexponent.read early hrest
    have hwholeRead : wholePart early (whole ++ (fraction ++ (exponent ++ rest))) =
        .ok (whole, fraction ++ (exponent ++ rest)) :=
      wholePart_append hwhole.digits hwhole.nonempty hwhole.zero (hfraction.head? fun c hc => (hlast c hc).1)
    refine ⟨⟨negative, whole, ds, exponentNegative, es⟩, ?_⟩
    rw [unsignedLiteral, List.append_assoc, List.append_assoc, hwholeRead, Reading.andThen_ok, hfractionRead,
      Reading.andThen_ok, hexponentRead, Reading.andThen_ok]
  cases h with
  | @positive whole fraction exponent hwhole hfraction hexponent =>
    obtain ⟨l, hl⟩ := hunsigned false hwhole hfraction hexponent
    refine ⟨l, (literal_of_ne early ?_).trans hl⟩
    intro t ht
    obtain ⟨c, ds, rfl⟩ := List.exists_cons_of_ne_nil hwhole.nonempty
    exact hwhole.digits.head_ne (by decide) (List.cons.inj ht).1
  | negative hwhole hfraction hexponent => exact hunsigned true hwhole hfraction hexponent

theorem IsNumeral.skipNumber {s rest : List Char} (h : IsNumeral s) (hrest : EndsNumber rest) :
    skipNumber (s ++ rest) = .ok ((), rest) := by
  obtain ⟨l, hl⟩ := h.read .invalidNumber hrest
  rw [SettingsRelay.skipNumber, hl, Reading.andThen_ok]

theorem IsNumeral.exists_cons {s : List Char} (h : IsNumeral s) :
    ∃ c t, s = c :: t ∧ (c = '-' ∨ c.isDigit = true) := by
  cases h with
  | positive hwhole =>
    obtain ⟨c, ds, rfl⟩ := List.exists_cons_of_ne_nil hwhole.nonempty
    exact ⟨c, _, rfl, .inr (hwhole.digits c List.mem_cons_self)⟩
  | negative => exact ⟨'-', _, rfl, .inl rfl⟩

/-! ## Values -/

def Bracket.opening : Bracket → Char
  | list => '['
  | object => '{'

def Bracket.closing : Bracket → Char
  | list => ']'
  | object => '}'

/-- The forms that the grammar knows: a value, what stands between two commas within brackets, and all that
stands within brackets where they are not empty. -/
inductive Form where
  | value
  | item (b : Bracket)
  | items (b : Bracket)

inductive Matches : Form → List Char → Prop where
  | null : Matches .value ['n', 'u', 'l', 'l']
  | flagTrue : Matches .value ['t', 'r', 'u', 'e']
  | flagFalse : Matches .value ['f', 'a', 'l', 's', 'e']
  | numeral {s : List Char} (h : IsNumeral s) : Matches .value s
  | text {s : List Char} (h : IsText s) : Matches .value ('"' :: (s ++ ['"']))
  | empty (b : Bracket) {s : List Char} (h : IsBlanks s) : Matches .value (b.opening :: (s ++ [b.closing]))
  | full (b : Bracket) {s : List Char} (h : Matches (.items b) s) : Matches .value (b.opening :: (s ++ [b.closing]))
  | element {before s after : List Char} (hbefore : IsBlanks before) (h : Matches .value s)
      (hafter : IsBlanks after) : Matches (.item .list) (before ++ (s ++ after))
  | member {lead key gap before s after : List Char} (hlead : IsBlanks lead) (hkey : IsText key)
      (hgap : IsBlanks gap) (hbefore : IsBlanks before) (h : Matches .value s) (hafter : IsBlanks after) :
      Matches (.item .object) (lead ++ '"' :: (key ++ '"' :: (gap ++ ':' :: (before ++ (s ++ after)))))
  | one {b : Bracket} {s : List Char} (h : Matches (.item b) s) : Matches (.items b) s
  | more {b : Bracket} {s t : List Char} (h : Matches (.item b) s) (ht : Matches (.items b) t) :
      Matches (.items b) (s ++ ',' :: t)

/-- No part starts with a closing bracket. -/
theorem Matches.opens {form : Form} {s : List Char} (h : Matches form s) (rest : List Char) :
    ∃ c t, skipBlank (s ++ rest) = c :: t ∧ c ≠ ']' ∧ c ≠ '}' := by
  induction h generalizing rest with
  | null => exact ⟨'n', _, rfl, by decide, by decide⟩
  | flagTrue => exact ⟨'t', _, rfl, by decide, by decide⟩
  | flagFalse => exact ⟨'f', _, rfl, by decide, by decide⟩
  | numeral h =>
    obtain ⟨c, t, rfl, hc⟩ := h.exists_cons
    exact ⟨c, _, skipBlank_cons (isBlank_of_number hc) _, ne_of_number hc (by decide), ne_of_number hc (by decide)⟩
  | text => exact ⟨'"', _, rfl, by decide, by decide⟩
  | empty b | full b => cases b <;> exact ⟨_, _, rfl, by decide, by decide⟩
  | element hbefore _ _ ih =>
    rw [List.append_assoc, skipBlank_append hbefore, List.append_assoc]
    exact ih _
  | member hlead =>
    rw [List.append_assoc, skipBlank_append hlead]
    exact ⟨'"', _, rfl, by decide, by decide⟩
  | one _ ih => exact ih rest
  | more _ _ ih _ =>
    rw [List.append_assoc]
    exact ih _

/-! ## Passing over values -/

theorem skipValue_eq (outer : List Bracket) (s : List Char) :
    skipValue outer s = match skipStart s with
      | .error fault => .error fault
      | .ok (none, rest) => skipClosing outer rest
      | .ok (some bracket, rest) => skipValue (bracket :: outer) rest := by
  rw [skipValue]
  split <;> next h => simp only [h]

theorem skipClosing_cons (bracket : Bracket) (outer : List Bracket) (s : List Char) :
    skipClosing (bracket :: outer) s = match skipSeparator bracket s with
      | .error fault => .error fault
      | .ok (true, rest) => skipValue (bracket :: outer) rest
      | .ok (false, rest) => skipClosing outer rest := by
  rw [skipClosing]
  split <;> next h => simp only [h]

theorem skipClosing_nil (s : List Char) : skipClosing [] s = .ok ((), s) := by
  rw [skipClosing]

theorem skipValue_blanks {blanks : List Char} (h : IsBlanks blanks) (outer : List Bracket) (s : List Char) :
    skipValue outer (blanks ++ s) = skipValue outer s := by
  have hstart : skipStart (blanks ++ s) = skipStart s := by rw [skipStart, skipBlank_append h, skipStart]
  rw [skipValue_eq, hstart, ← skipValue_eq]

theorem skipClosing_blanks {blanks : List Char} (h : IsBlanks blanks) (bracket : Bracket) (outer : List Bracket)
    (s : List Char) : skipClosing (bracket :: outer) (blanks ++ s) = skipClosing (bracket :: outer) s := by
  have hseparator : skipSeparator bracket (blanks ++ s) = skipSeparator bracket s := by
    rw [skipSeparator.eq_def, skipBlank_append h, ← skipSeparator.eq_def]
  rw [skipClosing_cons, hseparator, ← skipClosing_cons]

/-- What is passed over between a bracket or a comma and the value that follows it. -/
def skipLead : Bracket → List Char → Reading Unit
  | .list, s => .ok ((), s)
  | .object, s => skipKey s

theorem skipKey_skipBlank (s : List Char) : skipKey (skipBlank s) = skipKey s := by
  rw [skipKey, skipBlank_skipBlank, skipKey]

theorem skipStart_list {s : List Char} (hopens : ∃ c t, skipBlank s = c :: t ∧ c ≠ ']' ∧ c ≠ '}') :
    skipStart ('[' :: s) = .ok (some .list, skipBlank s) := by
  have hopening : skipBlank ('[' :: s) = '[' :: s := skipBlank_cons (by decide) s
  obtain ⟨c, t, hs, hclosing, _⟩ := hopens
  simp only [skipStart, hopening]
  split
  · next heq => rw [hs] at heq; cases heq
  · next heq => rw [hs] at heq; exact absurd (List.cons.inj heq).1 hclosing
  · rfl

theorem skipStart_object {s t : List Char} (hkey : skipKey s = .ok ((), t))
    (hopens : ∃ c t, skipBlank s = c :: t ∧ c ≠ ']' ∧ c ≠ '}') :
    skipStart ('{' :: s) = .ok (some .object, t) := by
  have hopening : skipBlank ('{' :: s) = '{' :: s := skipBlank_cons (by decide) s
  obtain ⟨c, r, hs, _, hclosing⟩ := hopens
  simp only [skipStart, hopening]
  split
  · next heq => rw [hs] at heq; exact absurd (List.cons.inj heq).1 hclosing
  · rw [skipKey_skipBlank, hkey, Reading.andThen_ok]

theorem skipValue_opening (b : Bracket) (outer : List Bracket) {s t : List Char} (hlead : skipLead b s = .ok ((), t))
    (hopens : ∃ c t, skipBlank s = c :: t ∧ c ≠ ']' ∧ c ≠ '}') :
    skipValue outer (b.opening :: s) = skipValue (b :: outer) t := by
  cases b with
  | list =>
    cases hlead
    have hblank : skipValue (.list :: outer) (skipBlank s) = skipValue (.list :: outer) s := by
      rw [skipValue_eq, skipValue_eq, skipStart, skipBlank_skipBlank, ← skipStart]
    rw [skipValue_eq, Bracket.opening, skipStart_list hopens]
    exact hblank
  | object => rw [skipValue_eq, Bracket.opening, skipStart_object hlead hopens]

theorem skipClosing_comma (b : Bracket) (outer : List Bracket) {s t : List Char} (hlead : skipLead b s = .ok ((), t)) :
    skipClosing (b :: outer) (',' :: s) = skipValue (b :: outer) t := by
  have hcomma : skipSeparator b (',' :: s) = .ok (true, t) := by
    cases b with
    | list =>
      cases hlead
      rfl
    | object =>
      change (skipKey s).andThen _ = _
      rw [show skipKey s = .ok ((), t) from hlead, Reading.andThen_ok]
  rw [skipClosing_cons, hcomma]

theorem skipClosing_closing (b : Bracket) (outer : List Bracket) (s : List Char) :
    skipClosing (b :: outer) (b.closing :: s) = skipClosing outer s := by
  have hclosing : skipSeparator b (b.closing :: s) = .ok (false, s) := by cases b <;> rfl
  rw [skipClosing_cons, hclosing]

theorem skipStart_scalar {s t : List Char} {c : Char} (hblank : isBlank c = false) (hlist : c ≠ '[')
    (hobject : c ≠ '{') (hscalar : skipScalar (c :: s) = .ok ((), t)) : skipStart (c :: s) = .ok (none, t) := by
  rw [skipStart, skipBlank_cons hblank]
  split
  · next heq => exact absurd (List.cons.inj heq).1 hlist
  · next heq => exact absurd (List.cons.inj heq).1 hobject
  · rw [hscalar, Reading.andThen_ok]

theorem skipScalar_eq_skipNumber {c : Char} (hc : c = '-' ∨ c.isDigit = true) (s : List Char) :
    skipScalar (c :: s) = skipNumber (c :: s) := by
  unfold skipScalar
  split
  · next h => cases h
  · next h => exact absurd (List.cons.inj h).1 (ne_of_number hc (by decide))
  · next h => exact absurd (List.cons.inj h).1 (ne_of_number hc (by decide))
  · next h => exact absurd (List.cons.inj h).1 (ne_of_number hc (by decide))
  · next h => exact absurd (List.cons.inj h).1 (ne_of_number hc (by decide))
  · next h =>
    cases h
    rw [if_pos hc]

theorem IsNumeral.skipStart {s rest : List Char} (h : IsNumeral s) (hrest : EndsNumber rest) :
    skipStart (s ++ rest) = .ok (none, rest) := by
  have hskip := h.skipNumber hrest
  obtain ⟨c, t, rfl, hc⟩ := h.exists_cons
  refine skipStart_scalar (isBlank_of_number hc) (ne_of_number hc (by decide)) (ne_of_number hc (by decide)) ?_
  rw [skipScalar_eq_skipNumber hc]
  exact hskip

theorem IsText.skipStart {s : List Char} (h : IsText s) (rest : List Char) :
    skipStart ('"' :: (s ++ '"' :: rest)) = .ok (none, rest) :=
  skipStart_scalar (by decide) (by decide) (by decide) (h.skipText rest)

theorem skipStart_empty (b : Bracket) {s : List Char} (h : IsBlanks s) (rest : List Char) :
    skipStart (b.opening :: (s ++ b.closing :: rest)) = .ok (none, rest) := by
  cases b <;>
    simp only [skipStart, Bracket.opening, Bracket.closing, skipBlank_cons (show isBlank '[' = false by decide),
      skipBlank_cons (show isBlank '{' = false by decide), skipBlank_append h,
      skipBlank_cons (show isBlank ']' = false by decide), skipBlank_cons (show isBlank '}' = false by decide)]

/-- How a part is passed over, within any brackets: a value up to its end, and an item after its lead in
the same way, up to a comma or to the closing bracket, which items are followed by. -/
def Form.IsSkipped : Form → List Char → Prop
  | .value, s => ∀ outer rest, EndsNumber rest → skipValue outer (s ++ rest) = skipClosing outer rest
  | .item b, s => ∀ outer rest, EndsNumber rest → ∃ t, skipLead b (s ++ rest) = .ok ((), t) ∧
      skipValue (b :: outer) t = skipClosing (b :: outer) rest
  | .items b, s => ∀ outer rest, ∃ t, skipLead b (s ++ b.closing :: rest) = .ok ((), t) ∧
      skipValue (b :: outer) t = skipClosing outer rest

theorem colon_blanks {gap : List Char} (h : IsBlanks gap) (s : List Char) : colon (gap ++ ':' :: s) = .ok ((), s) := by
  rw [colon, skipBlank_append h]
  rfl

theorem skipKey_append {lead key gap : List Char} (hlead : IsBlanks lead) (hkey : IsText key) (hgap : IsBlanks gap)
    (rest : List Char) : skipKey (lead ++ '"' :: (key ++ '"' :: (gap ++ ':' :: rest))) = .ok ((), rest) := by
  rw [skipKey, skipBlank_append hlead]
  change (skipText _).andThen _ = _
  rw [hkey.skipText, Reading.andThen_ok, colon_blanks hgap]

theorem Matches.isSkipped {form : Form} {s : List Char} (h : Matches form s) : form.IsSkipped s := by
  induction h with
  | null | flagTrue | flagFalse =>
    intro outer rest _
    rw [skipValue_eq]
    rfl
  | numeral h =>
    intro outer rest hrest
    rw [skipValue_eq, h.skipStart hrest]
  | text h =>
    intro outer rest _
    rw [List.cons_append, List.append_assoc, skipValue_eq]
    have := h.skipStart rest
    rw [List.singleton_append, this]
  | empty b h =>
    intro outer rest _
    rw [List.cons_append, List.append_assoc, List.singleton_append, skipValue_eq, skipStart_empty b h]
  | full b h ih =>
    intro outer rest _
    obtain ⟨t, hlead, hvalue⟩ := ih outer rest
    rw [List.cons_append, List.append_assoc, List.singleton_append, skipValue_opening b outer hlead (h.opens _), hvalue]
  | element hbefore _ hafter ih =>
    intro outer rest hrest
    refine ⟨_, rfl, ?_⟩
    rw [List.append_assoc, List.append_assoc, skipValue_blanks hbefore, ih _ _ (hrest.blanks hafter),
      skipClosing_blanks hafter]
  | @member lead key gap before s after hlead hkey hgap hbefore _ hafter ih =>
    intro outer rest hrest
    refine ⟨before ++ (s ++ (after ++ rest)), ?_, ?_⟩
    · have hkeyed := skipKey_append hlead hkey hgap (before ++ (s ++ (after ++ rest)))
      simp only [List.append_assoc, List.cons_append]
      exact hkeyed
    · rw [skipValue_blanks hbefore, ih _ _ (hrest.blanks hafter), skipClosing_blanks hafter]
  | @one b s _ ih =>
    intro outer rest
    have hclosing : EndsNumber (b.closing :: rest) := .of_char (by cases b <;> decide) rest
    obtain ⟨t, hlead, hvalue⟩ := ih outer _ hclosing
    exact ⟨t, hlead, hvalue.trans (skipClosing_closing b outer rest)⟩
  | @more b s t _ _ ih ihMore =>
    intro outer rest
    obtain ⟨r, hmore, hvalue⟩ := ihMore outer rest
    obtain ⟨u, hlead, hfirst⟩ := ih outer (',' :: (t ++ b.closing :: rest)) (.of_char (by decide) _)
    refine ⟨u, by rw [List.append_assoc, List.cons_append]; exact hlead, ?_⟩
    rw [hfirst, skipClosing_comma b outer hmore, hvalue]

/-- A well-formed value is passed over to its end. -/
theorem Matches.skipValue {s rest : List Char} (h : Matches .value s) (hrest : EndsNumber rest) :
    skipValue [] (s ++ rest) = .ok ((), rest) :=
  (h.isSkipped [] rest hrest).trans (skipClosing_nil rest)

end SettingsRelay
