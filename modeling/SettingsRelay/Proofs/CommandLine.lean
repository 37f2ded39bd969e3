import SettingsRelay.Switches
import Mathlib.Data.List.TakeWhile

/-!
# Command lines

What is known of an argument is its name, which ends at the first equals sign. A command line switches on what
is named anywhere in it, so neither order nor repetition matters, and two command lines in a row switch on what
either does. Read strictly, it is refused for the first argument with dashes that has neither name, as it stands
there, and gives the same switches otherwise. Unknown are no name at all and whatever is shorter or longer than
a known one.
-/

namespace SettingsRelay.Switches

/-! ## Arguments -/

/-- Whether an argument is the switch of a name, by itself or with a value. -/
def IsSwitch (name argument : String) : Prop :=
  argument = "--" ++ name ∨ ∃ value, argument = "--" ++ name ++ "=" ++ value

def IsDashed (argument : String) : Prop := ∃ text, argument = "--" ++ text

def IsKnown (argument : String) : Prop :=
  IsSwitch allowRunningName argument ∨ IsSwitch noDisplayingName argument

def IsUnknown (argument : String) : Prop := IsDashed argument ∧ ¬IsKnown argument

theorem toList_dashed (text : String) : ("--" ++ text).toList = '-' :: '-' :: text.toList := by
  rw [String.toList_append]
  rfl

theorem toList_valued (name value : String) :
    ("--" ++ name ++ "=" ++ value).toList = '-' :: '-' :: (name.toList ++ '=' :: value.toList) := by
  rw [String.append_assoc, String.append_assoc, toList_dashed, String.toList_append, String.toList_append]
  rfl

theorem afterDashes?_eq_some_iff {argument : String} {rest : List Char} :
    afterDashes? argument = some rest ↔ argument.toList = '-' :: '-' :: rest := by
  unfold afterDashes?
  split
  · next rest' heq => simp [heq]
  · next hno =>
    simp only [reduceCtorEq, false_iff]
    exact hno rest

theorem afterDashes?_dashed (text : String) : afterDashes? ("--" ++ text) = some text.toList :=
  afterDashes?_eq_some_iff.2 (toList_dashed text)

theorem isSome_afterDashes?_iff {argument : String} :
    (afterDashes? argument).isSome = true ↔ IsDashed argument := by
  rw [Option.isSome_iff_exists]
  constructor
  · rintro ⟨rest, hrest⟩
    refine ⟨String.ofList rest, String.toList_inj.1 ?_⟩
    rw [toList_dashed, String.toList_ofList]
    exact afterDashes?_eq_some_iff.1 hrest
  · rintro ⟨text, rfl⟩
    exact ⟨text.toList, afterDashes?_dashed text⟩

/-- A text up to its first equals sign has none, and is all of it or has the sign next. -/
theorem takeWhile_eq_iff {rest name : List Char} :
    rest.takeWhile (· ≠ '=') = name ↔ '=' ∉ name ∧ (rest = name ∨ ∃ value, rest = name ++ '=' :: value) := by
  constructor
  · rintro rfl
    refine ⟨fun hmem => by simpa using List.mem_takeWhile_imp hmem, ?_⟩
    have hsplit : rest.takeWhile (· ≠ '=') ++ rest.dropWhile (· ≠ '=') = rest := List.takeWhile_append_dropWhile
    have hstop := List.head?_dropWhile_not (fun c : Char => decide (c ≠ '=')) rest
    cases hdrop : rest.dropWhile (· ≠ '=') with
    | nil =>
      rw [hdrop, List.append_nil] at hsplit
      exact .inl hsplit.symm
    | cons c value =>
      rw [hdrop] at hsplit hstop
      obtain rfl : c = '=' := by simpa using hstop
      exact .inr ⟨value, hsplit.symm⟩
  · rintro ⟨hname, hrest⟩
    have hplain : ∀ c ∈ name, decide (c ≠ '=') = true := fun c hc => decide_eq_true fun heq => hname (heq ▸ hc)
    rcases hrest with rfl | ⟨value, rfl⟩
    · exact List.takeWhile_eq_self_iff.2 hplain
    · rw [List.takeWhile_append_of_pos hplain]
      simp

theorem isSwitch_iff {name argument : String} :
    IsSwitch name argument ↔ ∃ rest, afterDashes? argument = some rest ∧
      (rest = name.toList ∨ ∃ value, rest = name.toList ++ '=' :: value) := by
  simp only [afterDashes?_eq_some_iff]
  constructor
  · rintro (rfl | ⟨value, rfl⟩)
    · exact ⟨_, toList_dashed name, .inl rfl⟩
    · exact ⟨_, toList_valued name value, .inr ⟨_, rfl⟩⟩
  · rintro ⟨_, hargument, rfl | ⟨value, rfl⟩⟩
    · exact .inl (String.toList_inj.1 (hargument.trans (toList_dashed name).symm))
    · refine .inr ⟨String.ofList value, String.toList_inj.1 ?_⟩
      rw [toList_valued, String.toList_ofList]
      exact hargument

theorem name?_eq_some_iff {name argument : String} :
    name? argument = some name ↔ '=' ∉ name.toList ∧ IsSwitch name argument := by
  rw [isSwitch_iff, name?, Option.map_eq_some_iff, ← exists_and_left]
  refine exists_congr fun rest => ?_
  rw [← String.toList_inj, String.toList_ofList, takeWhile_eq_iff, and_left_comm]

theorem name?_allowRunning_iff {argument : String} :
    name? argument = some allowRunningName ↔ IsSwitch allowRunningName argument :=
  name?_eq_some_iff.trans (and_iff_right (by decide))

theorem name?_noDisplaying_iff {argument : String} :
    name? argument = some noDisplayingName ↔ IsSwitch noDisplayingName argument :=
  name?_eq_some_iff.trans (and_iff_right (by decide))

instance (argument : String) : Decidable (IsDashed argument) := decidable_of_iff _ isSome_afterDashes?_iff

instance (argument : String) : Decidable (IsKnown argument) :=
  decidable_of_iff _ (or_congr name?_allowRunning_iff name?_noDisplaying_iff)

instance (argument : String) : Decidable (IsUnknown argument) :=
  inferInstanceAs (Decidable (IsDashed argument ∧ ¬IsKnown argument))

/-! ## Lenient reading -/

def union (s t : Switches) : Switches where
  allowRunningInsecureContent := s.allowRunningInsecureContent || t.allowRunningInsecureContent
  noDisplayingInsecureContent := s.noDisplayingInsecureContent || t.noDisplayingInsecureContent

theorem union_assoc (s t u : Switches) : (s.union t).union u = s.union (t.union u) := by
  simp only [union, Bool.or_assoc]

@[simp] theorem union_empty (s : Switches) : s.union {} = s := by
  simp only [union, Bool.or_false]

@[simp] theorem empty_union (s : Switches) : union {} s = s := by
  simp only [union, Bool.false_or]

def ofArgument (argument : String) : Switches where
  allowRunningInsecureContent := name? argument = some allowRunningName
  noDisplayingInsecureContent := name? argument = some noDisplayingName

/-- One argument is added to the switches so far, or is none of them, whatever these are. -/
theorem recognize?_eq (s : Switches) (argument : String) :
    s.recognize? argument = if IsKnown argument then some (s.union (ofArgument argument)) else none := by
  have hdiffer : allowRunningName ≠ noDisplayingName := by decide
  simp only [IsKnown, ← name?_allowRunning_iff, ← name?_noDisplaying_iff, recognize?, ofArgument, union]
  cases name? argument with
  | none => simp
  | some name =>
    by_cases hallow : name = allowRunningName
    · simp [hallow, hdiffer]
    · by_cases hdisplay : name = noDisplayingName <;> simp [hallow, hdisplay, hdiffer.symm]

theorem ofArgument_eq_empty {argument : String} (hother : ¬IsKnown argument) : ofArgument argument = {} := by
  rw [IsKnown, ← name?_allowRunning_iff, ← name?_noDisplaying_iff, not_or] at hother
  simp [ofArgument, hother]

theorem getD_recognize? (s : Switches) (argument : String) :
    (s.recognize? argument).getD s = s.union (ofArgument argument) := by
  rw [recognize?_eq]
  split
  · rfl
  · next hother => rw [ofArgument_eq_empty hother, union_empty, Option.getD_none]

theorem foldl_recognize? (xs : List String) :
    ∀ s : Switches, xs.foldl (fun s argument => (s.recognize? argument).getD s) s = s.union (ofArguments xs) := by
  induction xs with
  | nil => exact fun s => s.union_empty.symm
  | cons argument rest ih =>
    intro s
    rw [ofArguments, List.foldl_cons, List.foldl_cons, ih, ih, getD_recognize?, getD_recognize?, empty_union,
      union_assoc]

theorem ofArguments_append (xs ys : List String) :
    ofArguments (xs ++ ys) = (ofArguments xs).union (ofArguments ys) := by
  rw [ofArguments, List.foldl_append, foldl_recognize?]
  rfl

theorem ofArguments_cons (argument : String) (rest : List String) :
    ofArguments (argument :: rest) = (ofArgument argument).union (ofArguments rest) := by
  rw [ofArguments, List.foldl_cons, foldl_recognize?, getD_recognize?, empty_union]

theorem flag_ofArguments (flag : Switches → Bool) (hempty : flag {} = false)
    (hunion : ∀ s t : Switches, flag (s.union t) = (flag s || flag t)) (xs : List String) :
    flag (ofArguments xs) = xs.any fun argument => flag (ofArgument argument) := by
  induction xs with
  | nil => exact hempty
  | cons argument rest ih => rw [ofArguments_cons, hunion, ih, List.any_cons]

theorem allowRunning_ofArguments_iff {xs : List String} :
    (ofArguments xs).allowRunningInsecureContent = true ↔ ∃ argument ∈ xs, IsSwitch allowRunningName argument := by
  rw [flag_ofArguments allowRunningInsecureContent rfl fun _ _ => rfl, List.any_eq_true]
  simp only [ofArgument, decide_eq_true_eq, name?_allowRunning_iff]

theorem noDisplaying_ofArguments_iff {xs : List String} :
    (ofArguments xs).noDisplayingInsecureContent = true ↔ ∃ argument ∈ xs, IsSwitch noDisplayingName argument := by
  rw [flag_ofArguments noDisplayingInsecureContent rfl fun _ _ => rfl, List.any_eq_true]
  simp only [ofArgument, decide_eq_true_eq, name?_noDisplaying_iff]

/-- Neither the order of arguments nor how often each is given matters. -/
theorem ofArguments_congr {xs ys : List String} (hsame : ∀ argument, argument ∈ xs ↔ argument ∈ ys) :
    ofArguments xs = ofArguments ys := by
  have hallow : (ofArguments xs).allowRunningInsecureContent = (ofArguments ys).allowRunningInsecureContent := by
    rw [Bool.eq_iff_iff, allowRunning_ofArguments_iff, allowRunning_ofArguments_iff]
    simp only [hsame]
  have hdisplay : (ofArguments xs).noDisplayingInsecureContent = (ofArguments ys).noDisplayingInsecureContent := by
    rw [Bool.eq_iff_iff, noDisplaying_ofArguments_iff, noDisplaying_ofArguments_iff]
    simp only [hsame]
  cases hx : ofArguments xs
  cases hy : ofArguments ys
  rw [hx, hy] at hallow hdisplay
  rw [mk.injEq]
  exact ⟨hallow, hdisplay⟩

/-! ## Strict reading -/

/-- A command line is read strictly as far as the first argument that has dashes and is no switch. -/
theorem addStrictly_eq (xs : List String) : ∀ s : Switches, addStrictly s xs =
    match xs.find? (IsUnknown ·) with
    | some argument => .error argument
    | none => .ok (s.union (ofArguments xs)) := by
  induction xs with
  | nil => exact fun s => congrArg Except.ok s.union_empty.symm
  | cons argument rest ih =>
    intro s
    rw [addStrictly, recognize?_eq, ofArguments_cons, ← union_assoc]
    by_cases hknown : IsKnown argument
    · have hfine : ¬IsUnknown argument := fun hunknown => hunknown.2 hknown
      rw [if_pos hknown, List.find?_cons_of_neg (by simpa using hfine)]
      exact ih _
    · rw [if_neg hknown, ofArgument_eq_empty hknown, union_empty]
      by_cases hdashed : IsDashed argument
      · have hunknown : IsUnknown argument := ⟨hdashed, hknown⟩
        rw [List.find?_cons_of_pos (by simpa using hunknown)]
        exact if_pos (isSome_afterDashes?_iff.2 hdashed)
      · have hfine : ¬IsUnknown argument := fun hunknown => hdashed hunknown.1
        rw [List.find?_cons_of_neg (by simpa using hfine)]
        exact (if_neg (mt isSome_afterDashes?_iff.1 hdashed)).trans (ih s)

theorem ofArgumentsStrict_eq (xs : List String) : ofArgumentsStrict xs =
    match xs.find? (IsUnknown ·) with
    | some argument => .error argument
    | none => .ok (ofArguments xs) := by
  rw [ofArgumentsStrict, addStrictly_eq, empty_union]

theorem ofArgumentsStrict_eq_ok_iff {xs : List String} {s : Switches} :
    ofArgumentsStrict xs = .ok s ↔
      (∀ argument ∈ xs, IsDashed argument → IsKnown argument) ∧ s = ofArguments xs := by
  have hall : (∀ argument ∈ xs, IsDashed argument → IsKnown argument) ↔
      xs.find? (IsUnknown ·) = none := by
    simp only [List.find?_eq_none, decide_eq_true_eq]
    exact forall₂_congr fun _ _ => not_and_not_right.symm
  rw [hall, ofArgumentsStrict_eq]
  cases xs.find? (IsUnknown ·) <;> simp [eq_comm]

theorem ofArgumentsStrict_eq_error_iff {xs : List String} {refused : String} :
    ofArgumentsStrict xs = .error refused ↔
      ∃ before after, xs = before ++ refused :: after ∧ IsUnknown refused ∧
        ∀ argument ∈ before, ¬IsUnknown argument := by
  have hfirst : ofArgumentsStrict xs = .error refused ↔ xs.find? (IsUnknown ·) = some refused := by
    rw [ofArgumentsStrict_eq]
    cases xs.find? (IsUnknown ·) <;> simp
  rw [hfirst, List.find?_eq_some_iff_append]
  simp only [decide_eq_true_eq, Bool.not_eq_true', decide_eq_false_iff_not]
  constructor
  · rintro ⟨hunknown, before, after, heq, hbefore⟩
    exact ⟨before, after, heq, hunknown, hbefore⟩
  · rintro ⟨before, after, heq, hunknown, hbefore⟩
    exact ⟨hunknown, before, after, heq, hbefore⟩

theorem isUnknown_of_name {name : String} (hname : '=' ∉ name.toList) (hallow : name ≠ allowRunningName)
    (hdisplay : name ≠ noDisplayingName) (value : String) :
    IsUnknown ("--" ++ name) ∧ IsUnknown ("--" ++ name ++ "=" ++ value) := by
  have hother : ∀ {argument : String}, IsSwitch name argument → ¬IsKnown argument := by
    intro argument hswitch hknown
    have hnamed := name?_eq_some_iff.2 ⟨hname, hswitch⟩
    rw [IsKnown, ← name?_allowRunning_iff, ← name?_noDisplaying_iff, hnamed, Option.some_inj, Option.some_inj] at hknown
    exact hknown.elim hallow hdisplay
  exact ⟨⟨⟨name, rfl⟩, hother (.inl rfl)⟩, ⟨⟨name ++ ("=" ++ value), by simp only [String.append_assoc]⟩,
    hother (.inr ⟨value, rfl⟩)⟩⟩

end SettingsRelay.Switches

namespace SettingsRelay

open Switches (IsSwitch IsDashed IsKnown IsUnknown)

/-- A flag is on exactly if an argument is its switch, in any order and however often. Read strictly, a command line
gives the same switches or is refused for the first argument with dashes that is none. -/
theorem command_lines_switch_on_what_they_name (xs : List String) :
    ((Switches.ofArguments xs).allowRunningInsecureContent = true ↔
      ∃ argument ∈ xs, IsSwitch "allow-running-insecure-content" argument) ∧
    ((Switches.ofArguments xs).noDisplayingInsecureContent = true ↔
      ∃ argument ∈ xs, IsSwitch "no-displaying-insecure-content" argument) ∧
    (∀ ys : List String, (∀ argument, argument ∈ ys ↔ argument ∈ xs) →
      Switches.ofArguments ys = Switches.ofArguments xs) ∧
    (∀ ys : List String,
      let s := Switches.ofArguments xs
      let t := Switches.ofArguments ys
      Switches.ofArguments (xs ++ ys) =
        ⟨s.allowRunningInsecureContent || t.allowRunningInsecureContent,
          s.noDisplayingInsecureContent || t.noDisplayingInsecureContent⟩) ∧
    (∀ s : Switches, Switches.ofArgumentsStrict xs = .ok s ↔
      (∀ argument ∈ xs, IsDashed argument → IsKnown argument) ∧ s = Switches.ofArguments xs) ∧
    (∀ refused : String, Switches.ofArgumentsStrict xs = .error refused ↔
      ∃ before after, xs = before ++ refused :: after ∧ IsUnknown refused ∧
        ∀ argument ∈ before, ¬IsUnknown argument) ∧
    ∀ name : String, '=' ∉ name.toList → name ≠ "allow-running-insecure-content" →
      name ≠ "no-displaying-insecure-content" →
        ∀ value : String, IsUnknown ("--" ++ name) ∧ IsUnknown ("--" ++ name ++ "=" ++ value) :=
  ⟨Switches.allowRunning_ofArguments_iff, Switches.noDisplaying_ofArguments_iff,
    fun _ hsame => Switches.ofArguments_congr hsame, Switches.ofArguments_append xs,
    fun _ => Switches.ofArgumentsStrict_eq_ok_iff, fun _ => Switches.ofArgumentsStrict_eq_error_iff,
    fun _ hname hallow hdisplay => Switches.isUnknown_of_name hname hallow hdisplay⟩

/-- A name without its last letter is refused with its value, between known switches and before two dashes alone. The
other arguments are read alike in any order and however often. -/
theorem shortened_name_is_refused :
    let refused := "--allow-running-insecure-conten=a=b"
    let known := ["relay", "--no-displaying-insecure-content=0", "-x=--", "--allow-running-insecure-content"]
    Switches.ofArgumentsStrict (known ++ refused :: ["--", "--no-displaying-insecure-content"]) = .error refused ∧
    IsUnknown "--" ∧ IsUnknown "--=x" ∧ IsUnknown "--no-displaying-insecure-contents" ∧
    Switches.ofArguments (known.reverse ++ known) = ⟨true, true⟩ ∧
    Switches.ofArgumentsStrict known = .ok ⟨true, true⟩ := by
  intro refused known
  obtain ⟨-, -, hsame, -, hok, -, hunknown⟩ := command_lines_switch_on_what_they_name known
  obtain ⟨-, -, -, -, -, hrefused, -⟩ :=
    command_lines_switch_on_what_they_name (known ++ refused :: ["--", "--no-displaying-insecure-content"])
  have hshort := hunknown "allow-running-insecure-conten" (by decide) (by decide) (by decide) "a=b"
  have hnone := hunknown "" (by decide) (by decide) (by decide) "x"
  have hlong := hunknown "no-displaying-insecure-contents" (by decide) (by decide) (by decide) ""
  refine ⟨(hrefused _).2 ⟨known, _, rfl, hshort.2, by decide⟩, hnone.1, hnone.2, hlong.1, ?_,
    (hok _).2 ⟨by decide, by decide⟩⟩
  rw [hsame _ fun argument => by simp]
  decide

end SettingsRelay
