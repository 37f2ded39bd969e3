import Mathlib.Data.List.ReduceOption
import SettingsRelay.Proofs.Grammar

/-!
# Documents overlay defaults

A document says which fields of the default record are something else, and nothing more. The order of its
members does not matter, nor do blanks, the spelling of keys and members with other names, whatever their
values are. A name that comes twice makes the document unreadable.
-/

namespace SettingsRelay

structure Setting (R : Type) where
  field : Field R
  value : field.kind.Carrier

namespace Schema

variable {R : Type} {schema : Schema R}

/-! ## Documents -/

/-- A member after the quote that opens its key, with the setting that it makes. Its value is any text that is
read as the value on its own. A member with another name makes none, and its value is any well-formed one. -/
inductive IsMember (schema : Schema R) : Option (Setting R) → List Char → Prop where
  | known {f : Field R} {key gap text : List Char} {x : f.kind.Carrier} (hf : f ∈ schema.fields)
      (hkey : Spells key f.name.toList) (hgap : IsBlanks gap)
      (hvalue : parseAll f.kind.read (String.ofList text) = .ok x) :
      IsMember schema (some ⟨f, x⟩) (key ++ '"' :: (gap ++ ':' :: text))
  | unknown {key name gap before text after : List Char} (hkey : Spells key name)
      (hname : ∀ f ∈ schema.fields, f.name.toList ≠ name) (hgap : IsBlanks gap) (hbefore : IsBlanks before)
      (htext : Matches .value text) (hafter : IsBlanks after) :
      IsMember schema none (key ++ '"' :: (gap ++ ':' :: (before ++ (text ++ after))))

inductive AreMembers (schema : Schema R) : List (Option (Setting R)) → List Char → Prop where
  | one {m : Option (Setting R)} {s : List Char} (h : schema.IsMember m s) : AreMembers schema [m] s
  | more {m : Option (Setting R)} {ms : List (Option (Setting R))} {s lead t : List Char}
      (h : schema.IsMember m s) (hlead : IsBlanks lead) (ht : schema.AreMembers ms t) :
      AreMembers schema (m :: ms) (s ++ ',' :: (lead ++ '"' :: t))

inductive IsDocument (schema : Schema R) : List (Option (Setting R)) → List Char → Prop where
  | empty {lead gap tail : List Char} (hlead : IsBlanks lead) (hgap : IsBlanks gap) (htail : IsBlanks tail) :
      IsDocument schema [] (lead ++ '{' :: (gap ++ '}' :: tail))
  | full {ms : List (Option (Setting R))} {lead gap s tail : List Char} (hlead : IsBlanks lead)
      (hgap : IsBlanks gap) (h : schema.AreMembers ms s) (htail : IsBlanks tail) :
      IsDocument schema ms (lead ++ '{' :: (gap ++ '"' :: (s ++ '}' :: tail)))

end Schema

/-! ## Settings one after the other -/

section Settling

variable {R : Type}

/-- The next member is taken in, or its name has come before. -/
def Progress.take (progress : Progress R) : Option (Setting R) → Except String (Progress R)
  | none => .ok progress
  | some x =>
    if x.field.name ∈ progress.present then .error x.field.name
    else .ok ⟨x.field.set x.value progress.record, x.field.name :: progress.present⟩

def settingNames (ms : List (Option (Setting R))) : List String := ms.reduceOption.map (·.field.name)

def overlay (settings : List (Setting R)) (r : R) : R := settings.foldl (fun r x => x.field.set x.value r) r

theorem settingNames_cons_some (x : Setting R) (ms : List (Option (Setting R))) :
    settingNames (some x :: ms) = x.field.name :: settingNames ms := rfl

/-- Names that come once, and not before, are all taken in. -/
theorem foldlM_take_of_nodup {ms : List (Option (Setting R))} {progress : Progress R}
    (hnodup : (settingNames ms).Nodup) (hnew : ∀ name ∈ settingNames ms, name ∉ progress.present) :
    ms.foldlM Progress.take progress =
      .ok ⟨overlay ms.reduceOption progress.record, (settingNames ms).reverse ++ progress.present⟩ := by
  induction ms generalizing progress with
  | nil => rfl
  | cons m ms ih =>
    cases m with
    | none => exact ih hnodup hnew
    | some x =>
      rw [settingNames_cons_some] at hnodup hnew
      obtain ⟨hfresh, hnodup⟩ := List.nodup_cons.1 hnodup
      have htake : progress.take (some x) =
          .ok ⟨x.field.set x.value progress.record, x.field.name :: progress.present⟩ :=
        if_neg (hnew _ List.mem_cons_self)
      rw [List.foldlM_cons, htake]
      refine (ih hnodup fun name hname hmem => ?_).trans ?_
      · rcases List.mem_cons.1 hmem with rfl | hmem
        · exact hfresh hname
        · exact hnew name (List.mem_cons_of_mem _ hname) hmem
      · rw [settingNames_cons_some, List.reverse_cons, List.append_assoc]
        rfl

theorem foldlM_take_of_not {ms : List (Option (Setting R))} {progress : Progress R}
    (h : ¬((settingNames ms).Nodup ∧ ∀ name ∈ settingNames ms, name ∉ progress.present)) :
    ∃ name ∈ settingNames ms, ms.foldlM Progress.take progress = .error name := by
  induction ms generalizing progress with
  | nil => exact absurd ⟨List.nodup_nil, by simp [settingNames]⟩ h
  | cons m ms ih =>
    cases m with
    | none => exact ih h
    | some x =>
      by_cases hpresent : x.field.name ∈ progress.present
      · have htake : progress.take (some x) = .error x.field.name := if_pos hpresent
        refine ⟨x.field.name, List.mem_cons_self, ?_⟩
        rw [List.foldlM_cons, htake]
        rfl
      · have htake : progress.take (some x) =
            .ok ⟨x.field.set x.value progress.record, x.field.name :: progress.present⟩ := if_neg hpresent
        have hrest : ¬((settingNames ms).Nodup ∧
            ∀ name ∈ settingNames ms, name ∉ x.field.name :: progress.present) := by
          rintro ⟨hnodup, hnew⟩
          refine h ⟨List.nodup_cons.2 ⟨fun hmem => hnew _ hmem List.mem_cons_self, hnodup⟩, ?_⟩
          intro name hname hmem
          rcases List.mem_cons.1 hname with rfl | hname
          · exact hpresent hmem
          · exact hnew name hname (List.mem_cons_of_mem _ hmem)
        obtain ⟨name, hname, hfold⟩ := @ih ⟨x.field.set x.value progress.record, _⟩ hrest
        refine ⟨name, List.mem_cons_of_mem _ hname, ?_⟩
        rw [List.foldlM_cons, htake]
        exact hfold

end Settling

/-! ## Reading documents -/

/-- What is read as a whole text is read from its front, up to some blanks. -/
theorem read_of_parseAll {α : Type} {read : List Char → Reading α} {text : List Char} {x : α}
    (h : parseAll read (String.ofList text) = .ok x) : ∃ tail, IsBlanks tail ∧ read text = .ok (x, tail) := by
  rw [parseAll, String.toList_ofList] at h
  split at h
  · cases h
  · next tail hread =>
    split at h
    · next htail =>
      cases h
      exact ⟨tail, List.dropWhile_eq_nil_iff.1 htail, hread⟩
    · cases h

theorem parseAll_of_read {α : Type} {read : List Char → Reading α} {text tail : List Char} {x : α}
    (h : read text = .ok (x, tail)) (htail : IsBlanks tail) : parseAll read (String.ofList text) = .ok x := by
  have hnone : skipBlank tail = [] := List.dropWhile_eq_nil_iff.2 htail
  rw [parseAll, String.toList_ofList, h]
  dsimp only
  rw [hnone]

theorem duplicateFault_cause (name : String) (rest : List Char) :
    (duplicateFault name rest).cause = .duplicateField name := by
  rw [duplicateFault]
  split <;> rfl

theorem memberSeparator_blanks {blanks : List Char} (h : IsBlanks blanks) (s : List Char) :
    memberSeparator (blanks ++ s) = memberSeparator s := by
  rw [memberSeparator, skipBlank_append h, memberSeparator]

namespace Schema

variable {R : Type} {schema : Schema R}

theorem member_known (hschema : schema.IsLawful) {f : Field R} (hf : f ∈ schema.fields) {key : List Char}
    (hkey : Spells key f.name.toList) (progress : Progress R) (s : List Char) :
    schema.member progress (key ++ '"' :: s) =
      if f.name ∈ progress.present then .error (duplicateFault f.name s)
      else
        (colon s).andThen fun _ rest =>
          (f.kind.read rest).andThen fun x rest =>
            .ok (⟨f.set x progress.record, f.name :: progress.present⟩, rest) := by
  rw [member, hkey.textBody, Reading.andThen_ok, String.ofList_toList, hschema.find?_name hf]

theorem member_unknown {key name : List Char} (hkey : Spells key name)
    (hname : ∀ f ∈ schema.fields, f.name.toList ≠ name) (progress : Progress R) (s : List Char) :
    schema.member progress (key ++ '"' :: s) =
      (colon s).andThen fun _ rest => (skipValue [] rest).andThen fun _ rest => .ok (progress, rest) := by
  have hnone : schema.find? (String.ofList name) = none := by
    refine List.find?_eq_none.2 fun f hf heq => hname f hf ?_
    rw [of_decide_eq_true heq, String.toList_ofList]
  rw [member, hkey.textBody, Reading.andThen_ok, hnone]

theorem IsMember.member_ok (hschema : schema.IsLawful) {m : Option (Setting R)} {s : List Char}
    (h : schema.IsMember m s) {progress p : Progress R} (htake : progress.take m = .ok p) {rest : List Char}
    (hrest : EndsNumber rest) :
    ∃ tail, IsBlanks tail ∧ schema.member progress (s ++ rest) = .ok (p, tail ++ rest) := by
  cases h with
  | @known f key gap text x hf hkey hgap hvalue =>
    obtain ⟨tail, htail, hread⟩ := read_of_parseAll hvalue
    refine ⟨tail, htail, ?_⟩
    have hlocal : f.kind.read (text ++ rest) = .ok (x, tail ++ rest) :=
      f.kind.isLocal_read text x tail hread rest hrest
    rw [Progress.take] at htake
    split at htake
    · cases htake
    · next hnew =>
      cases htake
      rw [List.append_assoc, List.cons_append, member_known hschema hf hkey, if_neg hnew, List.append_assoc,
        List.cons_append, colon_blanks hgap, Reading.andThen_ok, hlocal, Reading.andThen_ok]
  | @unknown key name gap before text after hkey hname hgap hbefore htext hafter =>
    cases htake
    refine ⟨after, hafter, ?_⟩
    have hskip : skipValue [] (before ++ (text ++ (after ++ rest))) = .ok ((), after ++ rest) := by
      rw [skipValue_blanks hbefore]
      exact htext.skipValue (hrest.blanks hafter)
    rw [List.append_assoc, List.cons_append, member_unknown hkey hname, List.append_assoc, List.cons_append,
      colon_blanks hgap, Reading.andThen_ok, List.append_assoc, List.append_assoc, hskip, Reading.andThen_ok]

theorem IsMember.member_error (hschema : schema.IsLawful) {m : Option (Setting R)} {s : List Char}
    (h : schema.IsMember m s) {progress : Progress R} {name : String} (htake : progress.take m = .error name)
    (rest : List Char) :
    ∃ fault, schema.member progress (s ++ rest) = .error fault ∧ fault.cause = .duplicateField name := by
  cases h with
  | @known f key gap text x hf hkey hgap hvalue =>
    rw [Progress.take] at htake
    split at htake
    · next hpresent =>
      cases htake
      refine ⟨duplicateFault f.name (gap ++ ':' :: text ++ rest), ?_, duplicateFault_cause f.name _⟩
      rw [List.append_assoc, List.cons_append, member_known hschema hf hkey, if_pos hpresent]
    · cases htake
  | unknown => cases htake

theorem members_of_error {progress : Progress R} {s : List Char} {fault : Fault}
    (hmember : schema.member progress s = .error fault) : schema.members progress s = .error fault := by
  rw [members]
  split
  · next h => rw [hmember] at h; cases h; rfl
  · next h => rw [hmember] at h; cases h

theorem IsMember.members_last (hschema : schema.IsLawful) {m : Option (Setting R)} {s : List Char}
    (h : schema.IsMember m s) {progress p : Progress R} (htake : progress.take m = .ok p) (rest : List Char) :
    schema.members progress (s ++ '}' :: rest) = .ok (p, rest) := by
  have hend : EndsNumber ('}' :: rest) := .of_char (by decide) rest
  obtain ⟨tail, htail, hmember⟩ := h.member_ok hschema htake hend
  exact members_of_close hmember (memberSeparator_close htail rest)

theorem IsMember.members_more (hschema : schema.IsLawful) {m : Option (Setting R)} {s lead : List Char}
    (h : schema.IsMember m s) (hlead : IsBlanks lead) {progress p : Progress R} (htake : progress.take m = .ok p)
    (t : List Char) : schema.members progress (s ++ ',' :: (lead ++ '"' :: t)) = schema.members p t := by
  have hend : EndsNumber (',' :: (lead ++ '"' :: t)) := .of_char (by decide) _
  obtain ⟨tail, htail, hmember⟩ := h.member_ok hschema htake hend
  have hnext : memberSeparator (tail ++ ',' :: (lead ++ '"' :: t)) = .ok (true, t) := by
    rw [memberSeparator_blanks htail, memberSeparator_next hlead]
  exact members_of_next hmember hnext

theorem AreMembers.members_ok (hschema : schema.IsLawful) {ms : List (Option (Setting R))} {s : List Char}
    (h : schema.AreMembers ms s) {progress p : Progress R} (hfold : ms.foldlM Progress.take progress = .ok p)
    (rest : List Char) : schema.members progress (s ++ '}' :: rest) = .ok (p, rest) := by
  induction h generalizing progress with
  | @one m s h =>
    have htake : progress.take m = .ok p := by simpa using hfold
    exact h.members_last hschema htake rest
  | @more m ms s lead t h hlead _ ih =>
    rw [List.foldlM_cons] at hfold
    cases htake : progress.take m with
    | error name =>
      rw [htake] at hfold
      cases hfold
    | ok q =>
      rw [htake] at hfold
      simp only [List.append_assoc, List.cons_append]
      rw [h.members_more hschema hlead htake, ih hfold]

theorem AreMembers.members_error (hschema : schema.IsLawful) {ms : List (Option (Setting R))} {s : List Char}
    (h : schema.AreMembers ms s) {progress : Progress R} {name : String}
    (hfold : ms.foldlM Progress.take progress = .error name) (rest : List Char) :
    ∃ fault, schema.members progress (s ++ '}' :: rest) = .error fault ∧ fault.cause = .duplicateField name := by
  induction h generalizing progress with
  | @one m s h =>
    have htake : progress.take m = .error name := by simpa using hfold
    obtain ⟨fault, hmember, hcause⟩ := h.member_error hschema htake ('}' :: rest)
    exact ⟨fault, members_of_error hmember, hcause⟩
  | @more m ms s lead t h hlead _ ih =>
    simp only [List.append_assoc, List.cons_append]
    rw [List.foldlM_cons] at hfold
    cases htake : progress.take m with
    | error again =>
      rw [htake] at hfold
      cases hfold
      obtain ⟨fault, hmember, hcause⟩ := h.member_error hschema htake (',' :: (lead ++ '"' :: (t ++ '}' :: rest)))
      exact ⟨fault, members_of_error hmember, hcause⟩
    | ok q =>
      rw [htake] at hfold
      rw [h.members_more hschema hlead htake]
      exact ih hfold

theorem AreMembers.field_mem {ms : List (Option (Setting R))} {s : List Char} (h : schema.AreMembers ms s) :
    ∀ x, some x ∈ ms → x.field ∈ schema.fields := by
  have hmember : ∀ {m : Option (Setting R)} {s : List Char}, schema.IsMember m s →
      ∀ x, some x = m → x.field ∈ schema.fields := by
    intro m s h x hx
    cases h with
    | known hf =>
      cases hx
      exact hf
    | unknown => cases hx
  induction h with
  | one h =>
    intro x hx
    exact hmember h x (List.mem_singleton.1 hx)
  | more h _ _ ih =>
    intro x hx
    rcases List.mem_cons.1 hx with hx | hx
    · exact hmember h x hx
    · exact ih x hx

theorem IsDocument.field_mem {ms : List (Option (Setting R))} {s : List Char} (h : schema.IsDocument ms s) :
    ∀ x ∈ ms.reduceOption, x.field ∈ schema.fields := by
  intro x hx
  rw [List.reduceOption_mem_iff] at hx
  cases h with
  | empty => cases hx
  | full _ _ h => exact h.field_mem x hx

theorem finish_of_optional (hoptional : schema.required = false) (p : Progress R) (rest : List Char) :
    schema.finish p rest = .ok (p.record, rest) := by
  have hnone : (schema.fields.find? fun f => schema.required && f.name ∉ p.present) = none := by
    refine List.find?_eq_none.2 fun f _ => ?_
    simp [hoptional]
  rw [finish, hnone]

theorem read_opening {lead : List Char} (hlead : IsBlanks lead) (s : List Char) :
    schema.read (lead ++ '{' :: s) = schema.readObject s := by
  rw [read, skipBlank_append hlead]
  rfl

theorem readObject_members {gap : List Char} (hgap : IsBlanks gap) (s : List Char) :
    schema.readObject (gap ++ '"' :: s) = (schema.members ⟨schema.initial, []⟩ s).andThen schema.finish := by
  rw [readObject, skipBlank_append hgap]
  rfl

/-- A document none of whose names comes twice is read as its settings over the default record. -/
theorem IsDocument.parse_ok (hschema : schema.IsLawful) (hoptional : schema.required = false)
    {ms : List (Option (Setting R))} {s : List Char} (h : schema.IsDocument ms s) (hnodup : (settingNames ms).Nodup) :
    parseAll schema.read (String.ofList s) = .ok (overlay ms.reduceOption schema.initial) := by
  cases h with
  | @empty lead gap tail hlead hgap htail =>
    have hread : schema.read (lead ++ '{' :: (gap ++ '}' :: tail)) = .ok (schema.initial, tail) := by
      rw [read_opening hlead, readObject, skipBlank_append hgap]
      exact finish_of_optional hoptional ⟨schema.initial, []⟩ tail
    exact parseAll_of_read hread htail
  | @full _ lead gap s tail hlead hgap h htail =>
    have hnew : ∀ name ∈ settingNames ms, name ∉ (⟨schema.initial, []⟩ : Progress R).present := by simp
    have hmembers := h.members_ok hschema (foldlM_take_of_nodup hnodup hnew) tail
    have hread : schema.read (lead ++ '{' :: (gap ++ '"' :: (s ++ '}' :: tail))) =
        .ok (overlay ms.reduceOption schema.initial, tail) := by
      rw [read_opening hlead, readObject_members hgap, hmembers, Reading.andThen_ok, finish_of_optional hoptional]
    exact parseAll_of_read hread htail

/-- A document with a name that comes twice is not read. -/
theorem IsDocument.parse_error (hschema : schema.IsLawful) {ms : List (Option (Setting R))} {s : List Char}
    (h : schema.IsDocument ms s) (hdup : ¬(settingNames ms).Nodup) :
    ∃ fault, ∃ name ∈ settingNames ms, parseAll schema.read (String.ofList s) = .error fault ∧
      fault.cause = .duplicateField name := by
  cases h with
  | empty => exact absurd List.nodup_nil hdup
  | @full _ lead gap s tail hlead hgap h htail =>
    obtain ⟨name, hname, hfold⟩ : ∃ name ∈ settingNames ms,
        ms.foldlM Progress.take ⟨schema.initial, []⟩ = .error name := foldlM_take_of_not fun h => hdup h.1
    obtain ⟨fault, hmembers, hcause⟩ := h.members_error hschema hfold tail
    refine ⟨fault, name, hname, ?_, hcause⟩
    rw [parseAll, String.toList_ofList, read_opening hlead, readObject_members hgap, hmembers, Reading.andThen_error]

/-! ## What the settings make of a record -/

/-- Fields that can be set without any effect on the others. -/
structure IsIndependent (schema : Schema R) : Prop where
  get_set : ∀ f ∈ schema.fields, ∀ x r, f.get (f.set x r) = x
  get_set_of_ne : ∀ f ∈ schema.fields, ∀ g ∈ schema.fields, f.name ≠ g.name → ∀ x r, f.get (g.set x r) = f.get r

theorem IsLawful.eq_of_name (h : schema.IsLawful) {f g : Field R} (hf : f ∈ schema.fields) (hg : g ∈ schema.fields)
    (hname : f.name = g.name) : f = g := by
  have hfind := h.find?_name hf
  rw [hname, h.find?_name hg] at hfind
  exact (Option.some.inj hfind).symm

theorem IsLawful.ext (h : schema.IsLawful) {a b : R} (hget : ∀ f ∈ schema.fields, f.get a = f.get b) : a = b := by
  have hcopied : ∀ (fields : List (Field R)) (start : R), (∀ f ∈ fields, f.get a = f.get b) →
      copied a fields start = copied b fields start := by
    intro fields
    induction fields with
    | nil => exact fun _ _ => rfl
    | cons f fields ih =>
      intro start hget
      have hset : f.set (f.get a) start = f.set (f.get b) start := by rw [hget f List.mem_cons_self]
      change copied a fields (f.set (f.get a) start) = copied b fields (f.set (f.get b) start)
      rw [hset]
      exact ih _ fun g hg => hget g (List.mem_cons_of_mem f hg)
  have hwhole := hcopied schema.fields schema.initial hget
  rw [h.whole, h.whole] at hwhole
  exact hwhole

theorem get_overlay_of_not_mem (hschema : schema.IsIndependent) {settings : List (Setting R)}
    (hfields : ∀ x ∈ settings, x.field ∈ schema.fields) {f : Field R} (hf : f ∈ schema.fields)
    (hname : f.name ∉ settings.map (·.field.name)) (r : R) : f.get (overlay settings r) = f.get r := by
  induction settings generalizing r with
  | nil => rfl
  | cons x settings ih =>
    rw [List.map_cons, List.mem_cons, not_or] at hname
    have hset : f.get (x.field.set x.value r) = f.get r :=
      hschema.get_set_of_ne f hf x.field (hfields x List.mem_cons_self) hname.1 x.value r
    rw [← hset]
    exact ih (fun y hy => hfields y (List.mem_cons_of_mem x hy)) hname.2 _

theorem get_overlay_of_mem (hschema : schema.IsIndependent) {settings : List (Setting R)}
    (hfields : ∀ x ∈ settings, x.field ∈ schema.fields) (hnodup : (settings.map (·.field.name)).Nodup)
    {x : Setting R} (hx : x ∈ settings) (r : R) : x.field.get (overlay settings r) = x.value := by
  induction settings generalizing r with
  | nil => cases hx
  | cons y settings ih =>
    obtain ⟨hnew, hnodup⟩ := List.nodup_cons.1 hnodup
    have hrest : ∀ z ∈ settings, z.field ∈ schema.fields := fun z hz => hfields z (List.mem_cons_of_mem y hz)
    change x.field.get (overlay settings (y.field.set y.value r)) = x.value
    rcases List.mem_cons.1 hx with rfl | hx
    · have hfield := hfields x List.mem_cons_self
      rw [get_overlay_of_not_mem hschema hrest hfield hnew, hschema.get_set x.field hfield]
    · exact ih hrest hnodup hx _

theorem overlay_perm (hlawful : schema.IsLawful) (hschema : schema.IsIndependent)
    {settings settings' : List (Setting R)} (hperm : settings'.Perm settings)
    (hfields : ∀ x ∈ settings, x.field ∈ schema.fields) (hnodup : (settings.map (·.field.name)).Nodup) (r : R) :
    overlay settings' r = overlay settings r := by
  have hfields' : ∀ x ∈ settings', x.field ∈ schema.fields := fun x hx => hfields x (hperm.mem_iff.1 hx)
  have hnodup' : (settings'.map (·.field.name)).Nodup := (hperm.map _).nodup_iff.2 hnodup
  refine hlawful.ext fun f hf => ?_
  by_cases hname : f.name ∈ settings.map (·.field.name)
  · obtain ⟨x, hx, hxf⟩ := List.mem_map.1 hname
    obtain rfl : x.field = f := hlawful.eq_of_name (hfields x hx) hf hxf
    rw [get_overlay_of_mem hschema hfields hnodup hx, get_overlay_of_mem hschema hfields' hnodup' (hperm.mem_iff.2 hx)]
  · have hname' : f.name ∉ settings'.map (·.field.name) := by rwa [(hperm.map _).mem_iff]
    rw [get_overlay_of_not_mem hschema hfields hf hname, get_overlay_of_not_mem hschema hfields' hf hname']

/-- What `parse` makes of documents: the default record with the settings of the document, each for its field.
A record that sets the same in another order, or says it in other words, is read as the same record. -/
def Overlays (schema : Schema R) (parse : String → Except Fault R) : Prop :=
  ∀ ms s, schema.IsDocument ms s →
    ((settingNames ms).Nodup →
      ∃ r, parse (String.ofList s) = .ok r ∧
        (∀ x ∈ ms.reduceOption, x.field ∈ schema.fields ∧ x.field.get r = x.value) ∧
        (∀ f ∈ schema.fields, f.name ∉ settingNames ms → f.get r = f.get schema.initial) ∧
        ∀ ms' s', schema.IsDocument ms' s' → ms'.reduceOption.Perm ms.reduceOption →
          parse (String.ofList s') = .ok r) ∧
    (¬(settingNames ms).Nodup →
      ∃ fault, ∃ name ∈ settingNames ms, parse (String.ofList s) = .error fault ∧
        fault.cause = .duplicateField name ∧ fault.cause.category = .mismatched)

theorem overlays (hlawful : schema.IsLawful) (hschema : schema.IsIndependent) (hoptional : schema.required = false) :
    schema.Overlays (parseAll schema.read) := by
  intro ms s h
  refine ⟨fun hnodup => ?_, fun hdup => ?_⟩
  · have hfields := h.field_mem
    refine ⟨overlay ms.reduceOption schema.initial, h.parse_ok hlawful hoptional hnodup,
      fun x hx => ⟨hfields x hx, get_overlay_of_mem hschema hfields hnodup hx _⟩,
      fun f hf hname => get_overlay_of_not_mem hschema hfields hf hname _, ?_⟩
    intro ms' s' h' hperm
    have hnodup' : (settingNames ms').Nodup := (hperm.map _).nodup_iff.2 hnodup
    rw [h'.parse_ok hlawful hoptional hnodup', overlay_perm hlawful hschema hperm hfields hnodup]
  · obtain ⟨fault, name, hname, hparse, hcause⟩ := h.parse_error hlawful hdup
    refine ⟨fault, name, hname, hparse, hcause, ?_⟩
    rw [hcause]
    rfl

end Schema

theorem Settings.isIndependent_schema : Settings.schema.IsIndependent where
  get_set := by
    simp only [schema, List.forall_mem_cons]
    simp
  get_set_of_ne := by
    simp only [schema, List.forall_mem_cons]
    simp

theorem Preferences.isIndependent_schema : Preferences.schema.IsIndependent where
  get_set := by
    simp only [schema, List.forall_mem_cons]
    simp
  get_set_of_ne := by
    simp only [schema, List.forall_mem_cons]
    simp

/-- Both kinds of documents overlay the defaults. Settings with a name that comes twice are refused as a
document of the wrong shape, and nothing is loaded. -/
theorem documents_overlay_defaults :
    Settings.schema.Overlays Settings.parse ∧ Preferences.schema.Overlays Preferences.parse ∧
    ∀ ms s, Settings.schema.IsDocument ms s → ¬(settingNames ms).Nodup →
      ∃ fault, ∃ name ∈ settingNames ms, Settings.load (String.ofList s) = .error (.document fault) ∧
        fault.cause = .duplicateField name ∧ fault.cause.category = .mismatched := by
  have hsettings : Settings.schema.Overlays Settings.parse :=
    Schema.overlays Settings.isLawful_schema Settings.isIndependent_schema rfl
  refine ⟨hsettings, Schema.overlays Preferences.isLawful_schema Preferences.isIndependent_schema rfl, ?_⟩
  intro ms s h hdup
  obtain ⟨fault, name, hname, hparse, hcause⟩ := (hsettings ms s h).2 hdup
  refine ⟨fault, name, hname, ?_, hcause⟩
  rw [Settings.load, hparse]

/-- A document with an escape in a key, with blanks and with a nested value that no field has, is read as the one
without any of these whose members are the other way round. One that sets a field twice is refused. -/
theorem awkward_documents_overlay_defaults :
    (∃ r,
      Settings.parse
          "\x7b\"\\u0069mages_enabled\" : false ,\n\"x\":[\x7b\"\":\"\\ud800\"\x7d, -1e5],\"text_size_percent\":20\x7d" =
        .ok r ∧
      Settings.parse "\x7b\"text_size_percent\":20,\"images_enabled\":false\x7d" = .ok r ∧
      r.imagesEnabled = false ∧ r.textSizePercent = 20 ∧ r.javascriptEnabled = true) ∧
    ∃ fault, Settings.load "\x7b\"images_enabled\":false,\"\\u0069mages_enabled\" : false \x7d" =
        .error (.document fault) ∧ fault.cause = .duplicateField "images_enabled" := by
  obtain ⟨hsettings, -, hload⟩ := documents_overlay_defaults
  have hnone : IsBlanks [] := by simp [IsBlanks]
  have hspace : IsBlanks [' '] := by simp [IsBlanks, isBlank]
  have hline : IsBlanks ['\n'] := by simp [IsBlanks, isBlank]
  let images : Setting Settings := ⟨Settings.schema.fields[2], false⟩
  let size : Setting Settings := ⟨Settings.schema.fields[14], (20 : Int32)⟩
  have hplain : Settings.schema.IsMember (some images)
      ("images_enabled".toList ++ '"' :: ([] ++ ':' :: "false".toList)) :=
    .known (List.getElem_mem _) (.of_plain (by decide)) hnone rfl
  have hsize : Settings.schema.IsMember (some size)
      ("text_size_percent".toList ++ '"' :: ([] ++ ':' :: "20".toList)) :=
    .known (List.getElem_mem _) (.of_plain (by decide)) hnone rfl
  have hunit : IsCodeUnit 0x69 ['0', '0', '6', '9'] :=
    @IsCodeUnit.digits 0 0 6 9 _ _ _ _ (.inl rfl) (.inl rfl) (.inl rfl) (.inl rfl)
  have htail : Spells "mages_enabled".toList "mages_enabled".toList := .of_plain (by decide)
  have himages : Settings.schema.IsMember (some images)
      ('\\' :: 'u' :: (['0', '0', '6', '9'] ++ "mages_enabled".toList) ++ '"' :: ([' '] ++ ':' :: " false ".toList)) :=
    .known (List.getElem_mem _) (.unit hunit (by decide) htail) hspace rfl
  have hhalf : IsCodeUnit 0xd800 ['d', '8', '0', '0'] :=
    @IsCodeUnit.digits 13 8 0 0 _ _ _ _ (.inl rfl) (.inl rfl) (.inl rfl) (.inl rfl)
  have hobject := Matches.full .object (.one (.member hnone .nil hnone hnone (.text (.unit hhalf .nil)) hnone))
  have hnumber : IsNumeral ('-' :: (['1'] ++ ([] ++ ['e', '5']))) :=
    .negative ⟨by simp [IsDigits], by simp, by simp⟩ .none (.unsigned (.inl rfl) (by simp [IsDigits]) (by simp))
  have hvalue := Matches.full .list
    (.more (.element hnone hobject hnone) (.one (.element hspace (.numeral hnumber) hnone)))
  have hnote : Settings.schema.IsMember none _ :=
    .unknown (.of_plain (s := "x".toList) (by decide)) (by decide) hnone hnone hvalue hnone
  have hawkward := Schema.IsDocument.full hnone hnone (.more himages hline (.more hnote hnone (.one hsize))) hnone
  have hshort := Schema.IsDocument.full hnone hnone (.more hsize hnone (.one hplain)) hnone
  have htwice := Schema.IsDocument.full hnone hnone (.more hplain hnone (.one himages)) hnone
  constructor
  · obtain ⟨r, hparse, hset, hrest, hsame⟩ := (hsettings _ _ hawkward).1 (by decide)
    refine ⟨r, hparse, hsame _ _ hshort ?_, ?_, ?_, ?_⟩
    · exact .swap _ _ _
    · exact (hset images (by simp [List.reduceOption])).2
    · exact (hset size (by simp [List.reduceOption])).2
    · exact hrest Settings.schema.fields[3] (List.getElem_mem _) (by decide)
  · obtain ⟨fault, name, hname, hrefused, hcause, -⟩ := hload _ _ htwice (by decide)
    refine ⟨fault, hrefused, ?_⟩
    have hname' : name = "images_enabled" := by
      change name ∈ ["images_enabled", "images_enabled"] at hname
      simpa using hname
    rw [hcause, hname']

end SettingsRelay
