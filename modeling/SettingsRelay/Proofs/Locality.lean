import Mathlib.Data.List.TakeWhile
import SettingsRelay.Proofs.Restoration

/-!
# Reading does not look ahead

What was read from the front of a text is read the same, and what was left is left, when more follows. Only
a number is ended by what follows it, so this must not go on a number.
-/

namespace SettingsRelay

variable {α β : Type}

/-- A reader for which only what it reads matters, and the end of a number. -/
def IsLocal (read : List Char → Reading α) : Prop :=
  ∀ s x r, read s = .ok (x, r) → ∀ rest, EndsNumber rest → read (s ++ rest) = .ok (x, r ++ rest)

/-! ## Readers one after the other -/

theorem IsLocal.andThen {first : List Char → Reading α} {next : α → List Char → Reading β} (h : IsLocal first)
    (hnext : ∀ x, IsLocal (next x)) : IsLocal fun s => (first s).andThen next := by
  intro s y r hread rest hrest
  obtain ⟨x, t, hfirst, hsecond⟩ := Reading.andThen_eq_ok.1 hread
  dsimp only
  rw [h s x t hfirst rest hrest, Reading.andThen_ok]
  exact hnext x t y r hsecond rest hrest

theorem isLocal_ok (x : α) : IsLocal fun s => .ok (x, s) := by
  intro s y r h rest _
  cases h
  rfl

theorem isLocal_error (fault : List Char → Fault) : IsLocal (α := α) fun s => .error (fault s) := by
  intro s y r h
  cases h

theorem skipBlank_append_of_cons {s t : List Char} {c : Char} (h : skipBlank s = c :: t) (rest : List Char) :
    skipBlank (s ++ rest) = c :: (t ++ rest) := by
  have hne : (s.dropWhile isBlank).isEmpty = false := by
    change s.dropWhile isBlank = c :: t at h
    rw [h]
    rfl
  change (s ++ rest).dropWhile isBlank = _
  rw [List.dropWhile_append, hne, if_neg Bool.false_ne_true]
  exact congrArg (· ++ rest) h

theorem isBlank_of_skipBlank {s t : List Char} {c : Char} (h : skipBlank s = c :: t) : isBlank c = false := by
  have hhead := List.head?_dropWhile_not isBlank s
  change s.dropWhile isBlank = c :: t at h
  rw [h] at hhead
  exact hhead

/-- A reader that starts with the first character that is no blank. -/
theorem isLocal_of_skipBlank {read : List Char → Reading α} (hblank : ∀ s, read (skipBlank s) = read s)
    (hnil : ∀ x r, read [] ≠ .ok (x, r))
    (hcons : ∀ c t x r, isBlank c = false → read (c :: t) = .ok (x, r) →
      ∀ rest, EndsNumber rest → read (c :: (t ++ rest)) = .ok (x, r ++ rest)) : IsLocal read := by
  intro s x r h rest hrest
  rw [← hblank] at h
  cases hs : skipBlank s with
  | nil =>
    rw [hs] at h
    exact absurd h (hnil x r)
  | cons c t =>
    rw [← hblank, skipBlank_append_of_cons hs]
    rw [hs] at h
    exact hcons c t x r (isBlank_of_skipBlank hs) h rest hrest

theorem isLocal_keyword (cs : List Char) : IsLocal (keyword cs) := by
  induction cs with
  | nil => exact isLocal_ok ()
  | cons c cs ih =>
    intro s x r h rest hrest
    cases s with
    | nil => cases h
    | cons a s =>
      rw [keyword] at h
      rw [List.cons_append, keyword]
      split at h
      · next hc =>
        rw [if_pos hc]
        exact ih s x r h rest hrest
      · cases h

/-! ## Numbers -/

theorem digitRun_append_rest (s : List Char) {rest : List Char} (hrest : ∀ c ∈ rest.head?, ¬c.isDigit) :
    digitRun (s ++ rest) = ((digitRun s).1, (digitRun s).2 ++ rest) := by
  have hdigits : IsDigits (digitRun s).1 := fun c hc => List.mem_takeWhile_imp hc
  have hstop : ∀ c ∈ ((digitRun s).2 ++ rest).head?, ¬c.isDigit := by
    have hhead := List.head?_dropWhile_not Char.isDigit s
    cases hr : (digitRun s).2 with
    | nil => exact hrest
    | cons c t =>
      change s.dropWhile Char.isDigit = c :: t at hr
      rw [hr] at hhead
      rintro _ ⟨⟩
      exact Bool.eq_false_iff.1 hhead
  have hsplit : s ++ rest = (digitRun s).1 ++ ((digitRun s).2 ++ rest) := by
    rw [← List.append_assoc]
    exact congrArg (· ++ rest) List.takeWhile_append_dropWhile.symm
  rw [hsplit, digitRun_append hdigits hstop]

theorem EndsNumber.no_digit {rest : List Char} (h : EndsNumber rest) : ∀ c ∈ rest.head?, ¬c.isDigit :=
  fun c hc => (h c hc).1

theorem isLocal_wholePart (early : Cause) : IsLocal (wholePart early) := by
  intro s ds r h rest hrest
  have hrun := fun t => digitRun_append_rest t hrest.no_digit
  unfold wholePart at h
  split at h
  · next t =>
    split at h
    · next hnone =>
      cases h
      rw [List.cons_append, wholePart, hrun, if_pos hnone]
    · cases h
  · next hzero =>
    split at h
    · cases h
    · next hsome =>
      cases h
      unfold wholePart
      split
      · next t heq =>
        cases s with
        | nil => exact absurd rfl hsome
        | cons c s =>
          rw [List.cons_append] at heq
          exact absurd (congrArg (· :: s) (List.cons.inj heq).1) (hzero s)
      · rw [hrun, if_neg hsome]
        rfl

theorem isLocal_fractionPart (early : Cause) : IsLocal (fractionPart early) := by
  intro s ds r h rest hrest
  have hrun := fun t => digitRun_append_rest t hrest.no_digit
  unfold fractionPart at h
  split at h
  · next t =>
    split at h
    · cases h
    · next hsome =>
      cases h
      rw [List.cons_append, fractionPart, hrun, if_neg hsome]
      rfl
  · next hpoint =>
    cases h
    unfold fractionPart
    split
    · next t heq =>
      cases s with
      | nil => exact absurd rfl (hrest '.' (by rw [← List.nil_append rest, heq]; rfl)).2.1
      | cons c s =>
        rw [List.cons_append] at heq
        exact absurd (congrArg (· :: s) (List.cons.inj heq).1) (hpoint s)
    · rfl

theorem exponentSign_of_ne {c : Char} (hplus : c ≠ '+') (hminus : c ≠ '-') (s : List Char) :
    exponentSign (c :: s) = (false, c :: s) := by
  unfold exponentSign
  split
  · next h => exact absurd (List.cons.inj h).1 hplus
  · next h => exact absurd (List.cons.inj h).1 hminus
  · rfl

theorem exponentSign_append {s : List Char} (hs : s ≠ []) (rest : List Char) :
    exponentSign (s ++ rest) = ((exponentSign s).1, (exponentSign s).2 ++ rest) := by
  obtain ⟨c, t, rfl⟩ := List.exists_cons_of_ne_nil hs
  by_cases hplus : c = '+'
  · subst hplus
    rfl
  by_cases hminus : c = '-'
  · subst hminus
    rfl
  · rw [List.cons_append, exponentSign_of_ne hplus hminus, exponentSign_of_ne hplus hminus]
    rfl

theorem isLocal_exponentPart (early : Cause) : IsLocal (exponentPart early) := by
  intro s x r h rest hrest
  cases s with
  | nil =>
    cases h
    rw [List.nil_append]
    cases rest with
    | nil => rfl
    | cons c rest =>
      obtain ⟨_, _, he, hE⟩ := hrest c rfl
      have hc : ¬(c = 'e' ∨ c = 'E') := not_or.2 ⟨he, hE⟩
      rw [exponentPart, if_neg hc]
  | cons c s =>
    rw [List.cons_append]
    by_cases hc : c = 'e' ∨ c = 'E'
    · rw [exponentPart, if_pos hc] at h
      dsimp only at h
      split at h
      · cases h
      · next hsome =>
        cases h
        have hne : s ≠ [] := by
          rintro rfl
          exact hsome rfl
        rw [exponentPart, if_pos hc, exponentSign_append hne]
        dsimp only
        rw [digitRun_append_rest _ hrest.no_digit, if_neg hsome]
    · rw [exponentPart, if_neg hc] at h
      cases h
      rw [exponentPart, if_neg hc, List.cons_append]

def unsignedLiteral (early : Cause) (negative : Bool) (s : List Char) : Reading Literal :=
  (wholePart early s).andThen fun whole s =>
    (fractionPart early s).andThen fun fraction s =>
      (exponentPart early s).andThen fun (exponentNegative, exponent) s =>
        .ok ({ negative, whole, fraction, exponentNegative, exponent }, s)

theorem literal_minus (early : Cause) (s : List Char) : literal early ('-' :: s) = unsignedLiteral early true s := rfl

theorem literal_of_ne (early : Cause) {s : List Char} (hs : ∀ t, s ≠ '-' :: t) :
    literal early s = unsignedLiteral early false s := by
  rw [literal]
  · rfl
  · exact hs

theorem isLocal_unsignedLiteral (early : Cause) (negative : Bool) : IsLocal (unsignedLiteral early negative) := by
  refine (isLocal_wholePart early).andThen fun whole => ?_
  refine (isLocal_fractionPart early).andThen fun fraction => ?_
  exact (isLocal_exponentPart early).andThen fun exponent => isLocal_ok _

theorem isLocal_literal (early : Cause) : IsLocal (literal early) := by
  intro s l r h rest hrest
  by_cases hs : ∃ t, s = '-' :: t
  · obtain ⟨t, rfl⟩ := hs
    rw [literal_minus] at h
    rw [List.cons_append, literal_minus]
    exact isLocal_unsignedLiteral early true t l r h rest hrest
  · have hfirst : ∀ t, s ≠ '-' :: t := fun t ht => hs ⟨t, ht⟩
    rw [literal_of_ne early hfirst] at h
    have hne : s ≠ [] := by
      rintro rfl
      cases h
    obtain ⟨c, s, rfl⟩ := List.exists_cons_of_ne_nil hne
    have hminus : ∀ t, c :: s ++ rest ≠ '-' :: t := by
      intro t ht
      exact hfirst s (congrArg (· :: s) (List.cons.inj ht).1)
    rw [literal_of_ne early hminus]
    exact isLocal_unsignedLiteral early false _ l r h rest hrest

theorem isLocal_number : IsLocal number := by
  refine (isLocal_literal .endInValue).andThen fun l => ?_
  cases l.value? with
  | none => exact isLocal_error _
  | some t => exact isLocal_ok t

/-! ## Texts -/

theorem isLocal_codeUnit : IsLocal codeUnit := by
  intro s n r h rest _
  unfold codeUnit at h
  split at h
  · next a b c d t =>
    split at h
    · next hn =>
      cases h
      simp only [List.cons_append, codeUnit, hn]
    · cases h
  · cases h

theorem isLocal_surrogatePair (high : Nat) : IsLocal (surrogatePair high) := by
  intro s c r h rest hrest
  unfold surrogatePair at h
  split at h
  · cases h
  · next t =>
    refine isLocal_codeUnit.andThen (fun low => ?_) t c r h rest hrest
    by_cases hlow : 0xdc00 ≤ low ∧ low ≤ 0xdfff
    · simp only [if_pos hlow]
      exact isLocal_ok _
    · simp only [if_neg hlow]
      exact isLocal_error _
  · cases h
  · cases h

theorem isLocal_unicodeEscape : IsLocal unicodeEscape := by
  refine isLocal_codeUnit.andThen fun unit => ?_
  by_cases hlow : 0xdc00 ≤ unit ∧ unit ≤ 0xdfff
  · simp only [if_pos hlow]
    exact isLocal_error _
  by_cases hhigh : 0xd800 ≤ unit ∧ unit ≤ 0xdbff
  · simp only [if_neg hlow, if_pos hhigh]
    exact isLocal_surrogatePair unit
  · simp only [if_neg hlow, if_neg hhigh]
    exact isLocal_ok _

theorem escape_of_simple {c x : Char} (h : simpleEscape? c = some x) (s : List Char) :
    escape (c :: s) = .ok (x, s) := by
  unfold escape
  split
  · next heq => cases heq
  · next heq =>
    cases heq
    cases h
  · next heq =>
    cases heq
    rw [h]

theorem isLocal_escape : IsLocal escape := by
  intro s x r h rest hrest
  unfold escape at h
  split at h
  · cases h
  · next t => exact isLocal_unicodeEscape t x r h rest hrest
  · next c t _ =>
    split at h
    · next y hy =>
      cases h
      exact escape_of_simple hy _
    · cases h

theorem isLocal_textBody : IsLocal textBody := by
  intro s body r h rest hrest
  fun_induction textBody s generalizing body r with
  | case1 => cases h
  | case2 t =>
    cases h
    rw [List.cons_append, textBody]
  | case3 => cases h
  | case4 t c t' hescape _ ih =>
    obtain ⟨body', t'', hbody, h⟩ := Reading.andThen_eq_ok.1 h
    cases h
    rw [List.cons_append, textBody_escape (isLocal_escape _ _ _ hescape rest hrest), ih _ _ hbody,
      Reading.andThen_ok]
  | case5 => cases h
  | case6 c t hquote hslash hcontrol ih =>
    obtain ⟨body', t', hbody, h⟩ := Reading.andThen_eq_ok.1 h
    cases h
    rw [List.cons_append, textBody_plain hquote hslash hcontrol, ih _ _ hbody, Reading.andThen_ok]

/-! ## Values -/

theorem skipBlank_skipBlank (s : List Char) : skipBlank (skipBlank s) = skipBlank s := by
  cases hs : skipBlank s with
  | nil => rfl
  | cons c t => exact skipBlank_cons (isBlank_of_skipBlank hs) t

theorem isLocal_token : IsLocal token := by
  refine isLocal_of_skipBlank (fun s => by rw [token, skipBlank_skipBlank, token]) (fun x r h => by cases h) ?_
  intro c t x r hblank h rest hrest
  have hkeyword : ∀ (cs : List Char) (token : Token),
      IsLocal fun s => (keyword cs s).andThen fun _ s => .ok (token, s) :=
    fun cs token => (isLocal_keyword cs).andThen fun _ => isLocal_ok token
  rw [token, skipBlank_cons hblank] at h
  split at h
  · next heq => cases heq
  · next heq =>
    cases heq
    exact hkeyword _ _ t x r h rest hrest
  · next heq =>
    cases heq
    exact hkeyword _ _ t x r h rest hrest
  · next heq =>
    cases heq
    exact hkeyword _ _ t x r h rest hrest
  · next heq =>
    cases heq
    exact (isLocal_textBody.andThen fun body => isLocal_ok _) t x r h rest hrest
  · next heq =>
    cases heq
    cases h
    rfl
  · next heq =>
    cases heq
    cases h
    rfl
  · next heq =>
    cases heq
    split at h
    · next hnumber =>
      rw [token_eq_number hnumber]
      exact isLocal_number (c :: t) x r h rest hrest
    · cases h

theorem isLocal_readToken (expected : String) (accept : Token → Option α) :
    IsLocal (Kind.readToken expected accept) := by
  refine isLocal_token.andThen fun found => ?_
  cases accept found with
  | none => exact isLocal_error _
  | some x => exact isLocal_ok x

theorem isLocal_readInteger : IsLocal Kind.readInteger := by
  refine isLocal_token.andThen fun found => ?_
  cases found with
  | integer n =>
    by_cases hn : Int32.minValue.toInt ≤ n ∧ n ≤ Int32.maxValue.toInt
    · simp only [if_pos hn]
      exact isLocal_ok _
    · simp only [if_neg hn]
      exact isLocal_error _
  | _ => exact isLocal_error _

theorem isLocal_layoutNamed (name : List Char) : IsLocal (Kind.layoutNamed name) := by
  unfold Kind.layoutNamed
  cases LayoutAlgorithm.ofName? (String.ofList name) with
  | none => exact isLocal_error _
  | some a => exact isLocal_ok a

theorem isLocal_colon : IsLocal colon := by
  refine isLocal_of_skipBlank (fun s => by rw [colon, skipBlank_skipBlank, colon]) (fun x r h => by cases h) ?_
  intro c t x r hblank h rest _
  rw [colon, skipBlank_cons hblank] at h
  split at h
  · next heq => cases heq
  · next heq =>
    cases heq
    cases h
    rfl
  · cases h

theorem isLocal_readLayout_object : IsLocal fun s => Kind.readLayout ('{' :: s) := by
  have hopen : ∀ s, skipBlank ('{' :: s) = '{' :: s := skipBlank_cons (by decide)
  refine isLocal_of_skipBlank (fun s => ?_) (fun x r h => by cases h) ?_
  · simp only [Kind.readLayout, hopen, skipBlank_skipBlank]
  · intro c t x r hblank h rest hrest
    simp only [Kind.readLayout, hopen, skipBlank_cons hblank] at h
    split at h
    · next heq => cases heq
    · next heq =>
      cases heq
      refine (isLocal_textBody.andThen fun name => ?_) t x r h rest hrest
      refine (isLocal_layoutNamed name).andThen fun a => ?_
      refine isLocal_colon.andThen fun _ => ?_
      refine (isLocal_readToken _ _).andThen fun _ => ?_
      refine isLocal_of_skipBlank (fun s => by rw [skipBlank_skipBlank]) (fun x r h => by cases h) ?_
      intro c t x r hblank h rest _
      rw [skipBlank_cons hblank] at h
      split at h
      · next heq => cases heq
      · next heq =>
        cases heq
        cases h
        rfl
      · cases h
    · cases h
    · cases h

theorem isLocal_readLayout : IsLocal Kind.readLayout := by
  refine isLocal_of_skipBlank (fun s => by rw [Kind.readLayout, skipBlank_skipBlank, Kind.readLayout])
    (fun x r h => by cases h) ?_
  intro c t x r hblank h rest hrest
  have hfirst := h
  rw [Kind.readLayout, skipBlank_cons hblank] at hfirst
  split at hfirst
  · next heq => cases heq
  · next heq =>
    cases heq
    exact (isLocal_textBody.andThen isLocal_layoutNamed) t x r h rest hrest
  · next heq =>
    cases heq
    exact isLocal_readLayout_object t x r h rest hrest
  · cases hfirst

/-- A value that is followed by something else is read as it is on its own. -/
theorem Kind.isLocal_read (k : Kind) : IsLocal k.read := by
  cases k with
  | integer => exact isLocal_readInteger
  | layout => exact isLocal_readLayout
  | _ => exact isLocal_readToken _ _

end SettingsRelay
