import SettingsRelay.Autofill.Suggestion
import SettingsRelay.Preferences.Fields
import SettingsRelay.Proofs.Numeral
import SettingsRelay.Proofs.Quotation
import SettingsRelay.Settings.Fields
import SettingsRelay.Settings.Refusal

/-!
# Records come back from their documents

A record is read from the document that it was written to, whether in one line or with a line for
each field: every field is found under its name, and its value is what its kind reads where the
value was written.
-/

namespace SettingsRelay

/-! ## Tokens -/

def IsBlanks (s : List Char) : Prop := ∀ c ∈ s, isBlank c = true

theorem skipBlank_append {blanks : List Char} (h : IsBlanks blanks) (s : List Char) :
    skipBlank (blanks ++ s) = skipBlank s :=
  List.dropWhile_append_of_pos h

theorem skipBlank_cons {c : Char} (h : isBlank c = false) (s : List Char) : skipBlank (c :: s) = c :: s :=
  List.dropWhile_cons_of_neg (by rw [h]; decide)

theorem EndsNumber.blanks {blanks rest : List Char} (h : IsBlanks blanks) (hrest : EndsNumber rest) :
    EndsNumber (blanks ++ rest) := by
  cases blanks with
  | nil => exact hrest
  | cons c blanks =>
    rintro _ ⟨⟩
    have hblank : isBlank c = true := h c List.mem_cons_self
    simp only [isBlank, Bool.or_eq_true, decide_eq_true_eq] at hblank
    rcases hblank with ((rfl | rfl) | rfl) | rfl <;> decide

theorem token_blanks {blanks : List Char} (h : IsBlanks blanks) (s : List Char) : token (blanks ++ s) = token s := by
  rw [token, skipBlank_append h, token]

theorem token_quoted (s : String) (rest : List Char) : token (quoted s ++ rest) = .ok (.text s, rest) := by
  have htext : quoted s ++ rest = '"' :: (s.toList.flatMap escaped ++ '"' :: rest) := by simp [quoted]
  rw [htext]
  change (textBody _).andThen _ = _
  rw [textBody_flatMap_escaped, Reading.andThen_ok, String.ofList_toList]

/-- What a number starts with, a digit or a minus sign, starts nothing else. -/
theorem ne_of_number {c x : Char} (hc : c = '-' ∨ c.isDigit = true) (hx : ¬(x = '-' ∨ x.isDigit = true)) : c ≠ x := by
  rintro rfl
  exact hx hc

theorem isBlank_of_number {c : Char} (hc : c = '-' ∨ c.isDigit = true) : isBlank c = false := by
  have hne : ∀ x : Char, ¬(x = '-' ∨ x.isDigit = true) → c ≠ x := fun _ => ne_of_number hc
  simp [isBlank, hne ' ' (by decide), hne '\t' (by decide), hne '\n' (by decide), hne '\r' (by decide)]

theorem token_eq_number {c : Char} (hc : c = '-' ∨ c.isDigit = true) (s : List Char) :
    token (c :: s) = number (c :: s) := by
  rw [token, skipBlank_cons (isBlank_of_number hc)]
  split
  · next h => cases h
  · next h => exact absurd (List.cons.inj h).1 (ne_of_number hc (by decide))
  · next h => exact absurd (List.cons.inj h).1 (ne_of_number hc (by decide))
  · next h => exact absurd (List.cons.inj h).1 (ne_of_number hc (by decide))
  · next h => exact absurd (List.cons.inj h).1 (ne_of_number hc (by decide))
  · next h => exact absurd (List.cons.inj h).1 (ne_of_number hc (by decide))
  · next h => exact absurd (List.cons.inj h).1 (ne_of_number hc (by decide))
  · next h =>
    cases h
    rw [if_pos hc]

theorem Literal.token_text {l : Literal} (hl : l.IsWritable) (rest : List Char) :
    token (l.text ++ rest) = number (l.text ++ rest) := by
  obtain ⟨c, ds, hwhole⟩ := List.exists_cons_of_ne_nil hl.hasWhole
  have hdigit : c.isDigit = true := hl.whole c (by rw [hwhole]; exact List.mem_cons_self)
  rw [text, hwhole]
  cases l.negative with
  | true => exact token_eq_number (.inl rfl) _
  | false => exact token_eq_number (.inr hdigit) _

theorem token_integerText (n : Int32) {rest : List Char} (hrest : EndsNumber rest) :
    token (Kind.integerText n.toInt ++ rest) = .ok (.integer n.toInt, rest) := by
  have hlow := n.le_toInt
  have hhigh := n.toInt_lt
  rw [← Literal.text_ofInt, Literal.token_text (Literal.isWritable_ofInt _), Literal.text_ofInt]
  exact number_integerText (by omega) (by omega) hrest

theorem token_real {l : Literal} (hl : l.IsWritable) (hwhole : l.isWhole = false) {x : Double}
    (hx : l.real? = some x)
    {rest : List Char} (hrest : EndsNumber rest) : token (l.text ++ rest) = .ok (.real x, rest) := by
  rw [l.token_text hl, number, literal_text hl hrest, Reading.andThen_ok, l.value?_of_not_isWhole hwhole, hx]
  rfl

/-! ## Values -/

/-- A finite number as it comes back from a document, if its literal can be read. -/
def Binary.restored? {f : BinaryFormat} (least greatest : Int) (x : Binary f) : Option (Binary f) :=
  if x.isFinite then (x.written least greatest).real?.map Binary.convert else none

theorem Binary.token_text {f : BinaryFormat} (hf : f.IsFine) {least greatest : Int} {x y : Binary f}
    (h : x.restored? least greatest = some y) {rest : List Char} (hrest : EndsNumber rest) :
    ∃ z : Double, token ((documentLayout least greatest).text x ++ rest) = .ok (.real z, rest) ∧ z.convert = y := by
  unfold restored? at h
  split at h
  · next hfinite =>
    obtain ⟨z, hz, hconvert⟩ := Option.map_eq_some_iff.1 h
    refine ⟨z, ?_, hconvert⟩
    rw [← text_written hfinite]
    exact token_real (isWritable_written hf x) (isWhole_written hfinite) hz hrest
  · cases h

namespace Kind

def restored? : (k : Kind) → k.Carrier → Option k.Carrier
  | single, x => Binary.restored? (-6) 12 x
  | double, x => Binary.restored? (-5) 15 x
  | _, x => some x

theorem read_blanks {blanks : List Char} (h : IsBlanks blanks) (k : Kind) (s : List Char) :
    k.read (blanks ++ s) = k.read s := by
  cases k with
  | integer =>
    change readInteger _ = readInteger _
    rw [readInteger, token_blanks h, readInteger]
  | layout =>
    change readLayout _ = readLayout _
    rw [readLayout, skipBlank_append h, readLayout]
  | _ =>
    change readToken _ _ _ = readToken _ _ _
    rw [readToken, token_blanks h, readToken]

theorem read_write {k : Kind} {x y : k.Carrier} (h : k.restored? x = some y) {rest : List Char}
    (hrest : EndsNumber rest) : k.read (k.write x ++ rest) = .ok (y, rest) := by
  cases k with
  | flag =>
    cases h
    cases x <;> rfl
  | integer =>
    cases h
    change readInteger (integerText x.toInt ++ rest) = _
    have hrange : Int32.minValue.toInt ≤ x.toInt ∧ x.toInt ≤ Int32.maxValue.toInt :=
      ⟨x.le_toInt, Int.le_of_lt_add_one x.toInt_lt⟩
    rw [readInteger, token_integerText x hrest, Reading.andThen_ok]
    dsimp only
    rw [if_pos hrange, Int32.ofInt_toInt]
  | text =>
    cases h
    change readToken _ _ (quoted x ++ rest) = _
    rw [readToken, token_quoted, Reading.andThen_ok]
  | optionalText =>
    cases h
    cases x with
    | none => rfl
    | some x =>
      change readToken _ _ (quoted x ++ rest) = _
      rw [readToken, token_quoted, Reading.andThen_ok]
  | single =>
    obtain ⟨z, htoken, hz⟩ := Binary.token_text BinaryFormat.isFine_single h hrest
    change readToken _ numberOf? (singleLayout.text x ++ rest) = _
    rw [readToken, singleLayout, htoken, Reading.andThen_ok, numberOf?, hz]
  | double =>
    obtain ⟨z, htoken, hz⟩ := Binary.token_text BinaryFormat.isFine_double h hrest
    change readToken _ numberOf? (doubleLayout.text x ++ rest) = _
    rw [readToken, doubleLayout, htoken, Reading.andThen_ok, numberOf?, hz]
  | layout =>
    cases h
    have htext : quoted x.name ++ rest = '"' :: (x.name.toList.flatMap escaped ++ '"' :: rest) := by simp [quoted]
    change readLayout (quoted x.name ++ rest) = _
    rw [htext]
    change (textBody _).andThen layoutNamed = _
    rw [textBody_flatMap_escaped, Reading.andThen_ok, layoutNamed, String.ofList_toList,
      LayoutAlgorithm.ofName?_name]

end Kind

/-! ## Members -/

namespace Schema

variable {R : Type} {schema : Schema R} {r r' : R} {lead gap : List Char}

def Restores (schema : Schema R) (r r' : R) : Prop :=
  ∀ f ∈ schema.fields, f.kind.restored? (f.get r) = some (f.get r')

def copied (r : R) (fields : List (Field R)) (start : R) : R :=
  fields.foldl (fun made f => f.set (f.get r) made) start

/-- Fields with different names that make up the whole record. -/
structure IsLawful (schema : Schema R) : Prop where
  distinct : (schema.fields.map Field.name).Nodup
  whole : ∀ r, copied r schema.fields schema.initial = r

theorem IsLawful.find?_name (h : schema.IsLawful) {f : Field R} (hf : f ∈ schema.fields) :
    schema.find? f.name = some f := by
  have hdistinct := h.distinct
  unfold find?
  generalize schema.fields = fields at *
  induction fields with
  | nil => cases hf
  | cons g fields ih =>
    rw [List.map_cons, List.nodup_cons] at hdistinct
    rcases List.mem_cons.1 hf with rfl | hmem
    · exact List.find?_cons_of_pos (decide_eq_true rfl)
    · have hne : g.name ≠ f.name := fun heq => hdistinct.1 (heq ▸ List.mem_map_of_mem hmem)
      rw [List.find?_cons_of_neg (by simpa using hne)]
      exact ih hmem hdistinct.2

/-- A field's key after the opening quote, and its value. -/
def memberTail (gap : List Char) (r : R) (f : Field R) : List Char :=
  f.name.toList.flatMap escaped ++ '"' :: ':' :: (gap ++ f.kind.write (f.get r))

theorem memberText_eq (gap : List Char) (r : R) (f : Field R) : memberText gap r f = '"' :: memberTail gap r f := by
  simp [memberText, memberTail, quoted]

/-- What stands after a member: more members, and then the closing brace with the rest of the document.
-/
def remainder (lead gap : List Char) (r : R) (rest : List Char) : List (Field R) → List Char
  | [] => rest
  | f :: fields => ',' :: (lead ++ '"' :: (memberTail gap r f ++ remainder lead gap r rest fields))

/-- A member is read as a field's new value, if the field was not set before. -/
theorem member_memberTail (hgap : IsBlanks gap) {f : Field R} (hfind : schema.find? f.name = some f)
    {progress : Progress R} (hnew : f.name ∉ progress.present)
    (hrestores : f.kind.restored? (f.get r) = some (f.get r')) {rest : List Char} (hrest : EndsNumber rest) :
    schema.member progress (memberTail gap r f ++ rest) =
      .ok (⟨f.set (f.get r') progress.record, f.name :: progress.present⟩, rest) := by
  have htext : memberTail gap r f ++ rest =
      f.name.toList.flatMap escaped ++ '"' :: (':' :: (gap ++ (f.kind.write (f.get r) ++ rest))) := by
    simp [memberTail]
  have hcolon : ∀ s, colon (':' :: s) = .ok ((), s) := fun _ => rfl
  rw [member, htext, textBody_flatMap_escaped, Reading.andThen_ok, String.ofList_toList, hfind]
  dsimp only
  rw [if_neg hnew, hcolon, Reading.andThen_ok, Kind.read_blanks hgap, Kind.read_write hrestores hrest,
    Reading.andThen_ok]

theorem memberSeparator_next (hlead : IsBlanks lead) (s : List Char) :
    memberSeparator (',' :: (lead ++ '"' :: s)) = .ok (true, s) := by
  have hcomma : skipBlank (',' :: (lead ++ '"' :: s)) = ',' :: (lead ++ '"' :: s) := skipBlank_cons (by decide) _
  have hquote : skipBlank (lead ++ '"' :: s) = '"' :: s := by
    rw [skipBlank_append hlead, skipBlank_cons (by decide)]
  rw [memberSeparator, hcomma]
  simp only [hquote]

theorem memberSeparator_close {tail : List Char} (htail : IsBlanks tail) (s : List Char) :
    memberSeparator (tail ++ '}' :: s) = .ok (false, s) := by
  rw [memberSeparator, skipBlank_append htail, skipBlank_cons (by decide)]
  rfl

theorem members_of_next {progress p : Progress R} {s rest rest' : List Char}
    (hmember : schema.member progress s = .ok (p, rest)) (hnext : memberSeparator rest = .ok (true, rest')) :
    schema.members progress s = schema.members p rest' := by
  rw [members]
  split
  · next h => rw [hmember] at h; cases h
  · next h =>
    rw [hmember] at h
    cases h
    split
    · next h => rw [hnext] at h; cases h
    · next h => rw [hnext] at h; cases h
    · next h => rw [hnext] at h; cases h; rfl

theorem members_of_close {progress p : Progress R} {s rest rest' : List Char}
    (hmember : schema.member progress s = .ok (p, rest)) (hclose : memberSeparator rest = .ok (false, rest')) :
    schema.members progress s = .ok (p, rest') := by
  rw [members]
  split
  · next h => rw [hmember] at h; cases h
  · next h =>
    rw [hmember] at h
    cases h
    split
    · next h => rw [hclose] at h; cases h
    · next h => rw [hclose] at h; cases h; rfl
    · next h => rw [hclose] at h; cases h

theorem endsNumber_remainder {rest : List Char} (hrest : EndsNumber rest) (fields : List (Field R)) :
    EndsNumber (remainder lead gap r rest fields) := by
  cases fields with
  | nil => exact hrest
  | cons f fields =>
    rintro c ⟨⟩
    decide

theorem endsNumber_close {tail : List Char} (htail : IsBlanks tail) (s : List Char) :
    EndsNumber (tail ++ '}' :: s) :=
  (EndsNumber.of_char (by decide) s).blanks htail

/-- Members that are read one after the other set their fields to what comes back of them. -/
theorem members_memberTail (hlead : IsBlanks lead) (hgap : IsBlanks gap) {tail : List Char} (htail : IsBlanks tail)
    (rest : List Char) (f : Field R) (fields : List (Field R)) (progress : Progress R)
    (hfind : ∀ g ∈ f :: fields, schema.find? g.name = some g)
    (hdistinct : ((f :: fields).map Field.name).Nodup)
    (hnew : ∀ g ∈ f :: fields, g.name ∉ progress.present)
    (hrestores : ∀ g ∈ f :: fields, g.kind.restored? (g.get r) = some (g.get r')) :
    ∃ p, schema.members progress (memberTail gap r f ++ remainder lead gap r (tail ++ '}' :: rest) fields) =
        .ok (p, rest) ∧ p.record = copied r' (f :: fields) progress.record ∧
      p.present = ((f :: fields).map Field.name).reverse ++ progress.present := by
  have hclose : EndsNumber (tail ++ '}' :: rest) := endsNumber_close htail rest
  induction fields generalizing f progress with
  | nil =>
    have hmember := member_memberTail hgap (hfind f List.mem_cons_self) (hnew f List.mem_cons_self)
      (hrestores f List.mem_cons_self) hclose
    exact ⟨_, members_of_close hmember (memberSeparator_close htail rest), rfl, rfl⟩
  | cons g fields ih =>
    have hnext : EndsNumber (remainder lead gap r (tail ++ '}' :: rest) (g :: fields)) :=
      endsNumber_remainder hclose (g :: fields)
    have hmember := member_memberTail hgap (hfind f List.mem_cons_self) (hnew f List.mem_cons_self)
      (hrestores f List.mem_cons_self) hnext
    rw [List.map_cons, List.nodup_cons] at hdistinct
    obtain ⟨p, hmembers, hrecord, hpresent⟩ := ih g ⟨f.set (f.get r') progress.record, f.name :: progress.present⟩
      (fun k hk => hfind k (List.mem_cons_of_mem f hk)) hdistinct.2
      (fun k hk hmem => by
        rcases List.mem_cons.1 hmem with heq | hmem
        · exact hdistinct.1 (heq ▸ List.mem_map_of_mem hk)
        · exact hnew k (List.mem_cons_of_mem f hk) hmem)
      (fun k hk => hrestores k (List.mem_cons_of_mem f hk))
    refine ⟨p, ?_, hrecord, ?_⟩
    · rw [members_of_next hmember (memberSeparator_next hlead _), hmembers]
    · rw [hpresent]
      simp

/-! ## Documents -/

/-- A record as a document with some blanks before each key, before each value and at the end. -/
def document (schema : Schema R) (lead gap tail : List Char) (r : R) : List Char :=
  '{' :: [','].intercalate (schema.fields.map fun f => lead ++ memberText gap r f) ++ (tail ++ ['}'])

theorem compact_eq_document (schema : Schema R) (r : R) : schema.compact r = schema.document [] [] [] r := rfl

theorem pretty_eq_document (schema : Schema R) (r : R) :
    schema.pretty r = schema.document ['\n', ' ', ' '] [' '] ['\n'] r := rfl

theorem intercalate_members (f : Field R) (fields : List (Field R)) (rest : List Char) :
    [','].intercalate ((f :: fields).map fun f => lead ++ memberText gap r f) ++ rest =
      lead ++ '"' :: (memberTail gap r f ++ remainder lead gap r rest fields) := by
  induction fields generalizing f with
  | nil => simp [memberText_eq, remainder]
  | cons g fields ih =>
    have hnext := ih g
    rw [List.map_cons] at hnext
    rw [List.map_cons, List.map_cons, List.intercalate_cons_cons, List.append_assoc, hnext]
    simp [memberText_eq, remainder]

theorem finish_of_present {p : Progress R} (h : ∀ f ∈ schema.fields, f.name ∈ p.present) (rest : List Char) :
    schema.finish p rest = .ok (p.record, rest) := by
  have hnone : (schema.fields.find? fun f => schema.required && f.name ∉ p.present) = none := by
    refine List.find?_eq_none.2 fun f hf => ?_
    simp [h f hf]
  rw [finish, hnone]

/-- A record is read from its document as a record all of whose fields came back. -/
theorem read_document (hschema : schema.IsLawful) (hlead : IsBlanks lead) (hgap : IsBlanks gap) {tail : List Char}
    (htail : IsBlanks tail) (hrestores : schema.Restores r r') :
    schema.read (schema.document lead gap tail r) = .ok (r', []) := by
  change schema.readObject
    ([','].intercalate (schema.fields.map fun f => lead ++ memberText gap r f) ++ (tail ++ ['}']))
    = _
  have hwhole : copied r' schema.fields schema.initial = r' := hschema.whole r'
  cases hfields : schema.fields with
  | nil =>
    rw [hfields] at hwhole
    rw [List.map_nil, List.intercalate_nil, List.nil_append, readObject, skipBlank_append htail,
      skipBlank_cons (by decide)]
    change schema.finish ⟨schema.initial, []⟩ [] = _
    rw [finish_of_present (by simp [hfields]), ← hwhole]
    rfl
  | cons f fields =>
    rw [intercalate_members, readObject, skipBlank_append hlead, skipBlank_cons (by decide)]
    change (schema.members ⟨schema.initial, []⟩ _).andThen schema.finish = _
    have hmem : ∀ g ∈ f :: fields, g ∈ schema.fields := fun g hg => hfields ▸ hg
    obtain ⟨p, hmembers, hrecord, hpresent⟩ := members_memberTail hlead hgap htail [] f fields ⟨schema.initial, []⟩
      (fun g hg => hschema.find?_name (hmem g hg)) (hfields ▸ hschema.distinct) (by simp)
      (fun g hg => hrestores g (hmem g hg))
    rw [hmembers, Reading.andThen_ok, finish_of_present, hrecord, ← hfields, hwhole]
    intro g hg
    rw [hfields] at hg
    rw [hpresent]
    exact List.mem_append_left _ (List.mem_reverse.2 (List.mem_map_of_mem hg))

theorem parseAll_document (hschema : schema.IsLawful) (hlead : IsBlanks lead) (hgap : IsBlanks gap)
    {tail : List Char} (htail : IsBlanks tail) (hrestores : schema.Restores r r') :
    parseAll schema.read (String.ofList (schema.document lead gap tail r)) = .ok r' := by
  rw [parseAll, String.toList_ofList, read_document hschema hlead hgap htail hrestores]
  rfl

theorem parseAll_compact (hschema : schema.IsLawful) (hrestores : schema.Restores r r') :
    parseAll schema.read (String.ofList (schema.compact r)) = .ok r' := by
  have hnone : IsBlanks [] := by simp [IsBlanks]
  rw [compact_eq_document]
  exact parseAll_document hschema hnone hnone hnone hrestores

theorem parseAll_pretty (hschema : schema.IsLawful) (hrestores : schema.Restores r r') :
    parseAll schema.read (String.ofList (schema.pretty r)) = .ok r' := by
  rw [pretty_eq_document]
  exact parseAll_document hschema (by simp [IsBlanks, isBlank]) (by simp [IsBlanks, isBlank])
    (by simp [IsBlanks, isBlank]) hrestores

end Schema

/-! ## The three kinds of records -/

namespace Settings

theorem isLawful_schema : schema.IsLawful where
  distinct := by decide
  whole _ := rfl

/-- Of all settings only the two numbers that are not integers may come back changed. -/
theorem restores {s : Settings} {percent : Single} {scale : Double}
    (hpercent : Binary.restored? (-6) 12 s.initialPageScalePercent = some percent)
    (hscale : Binary.restored? (-5) 15 s.dipScale = some scale) :
    schema.Restores s { s with initialPageScalePercent := percent, dipScale := scale } := by
  unfold Schema.Restores
  simp only [schema, List.forall_mem_cons, Kind.restored?, hpercent, hscale]
  simp

theorem load_toDocument {s s' : Settings} (hrestores : schema.Restores s s') (hvalid : s'.validate = .ok ()) :
    load s.toDocument = .ok s' := by
  have hparse : parse s.toDocument = .ok s' := Schema.parseAll_pretty isLawful_schema hrestores
  rw [load, hparse]
  dsimp only
  rw [validated, hvalid]

end Settings

namespace Preferences

theorem isLawful_schema : schema.IsLawful where
  distinct := by decide
  whole _ := rfl

/-- Of all preferences only the font scale factor may come back changed. -/
theorem restores {p : Preferences} {scale : Single}
    (hscale : Binary.restored? (-6) 12 p.fontScaleFactor = some scale) :
    schema.Restores p { p with fontScaleFactor := scale } := by
  unfold Schema.Restores
  simp only [schema, List.forall_mem_cons, Kind.restored?, hscale]
  simp

theorem parse_document {p p' : Preferences} (hrestores : schema.Restores p p') :
    parse p.toDocument = .ok p' ∧ parse p.toPrettyDocument = .ok p' :=
  ⟨Schema.parseAll_compact isLawful_schema hrestores, Schema.parseAll_pretty isLawful_schema hrestores⟩

end Preferences

namespace Suggestion

theorem isLawful_schema : schema.IsLawful where
  distinct := by decide
  whole _ := rfl

theorem restores (s : Suggestion) : schema.Restores s s := by
  unfold Schema.Restores
  simp only [schema, List.forall_mem_cons, Kind.restored?]
  simp

theorem parse_toDocument (s : Suggestion) : parse s.toDocument = .ok s :=
  Schema.parseAll_compact isLawful_schema s.restores

end Suggestion

/-- The usual numbers come back from their shortest decimals, and zero with its sign. -/
theorem Binary.restored?_usual :
    (∀ negative, (.zero negative : Single).restored? (-6) 12 = some (.zero negative)) ∧
    (.ofNat 1 : Single).restored? (-6) 12 = some (.ofNat 1) ∧
    (.ofNat 1 : Double).restored? (-5) 15 = some (.ofNat 1) := by
  decide +kernel

/-- Where the numbers that are not integers have their usual values, each of the three kinds of records
comes back from its documents as it was, whatever its texts, its integers and its absent values are. -/
theorem documents_restore_records :
    (∀ s : Settings, s.validate = .ok () → s.initialPageScalePercent = .zero false → s.dipScale = .ofNat 1 →
      Settings.load s.toDocument = .ok s) ∧
    (∀ p : Preferences, p.fontScaleFactor = .ofNat 1 →
      Preferences.parse p.toDocument = .ok p ∧ Preferences.parse p.toPrettyDocument = .ok p) ∧
    ∀ s : Suggestion, Suggestion.parse s.toDocument = .ok s := by
  obtain ⟨hzero, hsingle, hdouble⟩ := Binary.restored?_usual
  refine ⟨fun s hvalid hpercent hscale => ?_, fun p hscale => ?_, Suggestion.parse_toDocument⟩
  · have hrestores := Settings.restores (s := s) (by rw [hpercent]; exact hzero false) (by rw [hscale]; exact hdouble)
    rw [← hpercent, ← hscale] at hrestores
    exact Settings.load_toDocument hrestores hvalid
  · have hrestores := Preferences.restores (p := p) (by rw [hscale]; exact hsingle)
    rw [← hscale] at hrestores
    exact Preferences.parse_document hrestores

/-- Quotes, backslashes, control characters, characters outside the basic plane and nothing at all. -/
theorem awkward_records_come_back :
    (let s : Settings :=
      { userAgent := some "\"quoted\" \\ \x00\x1f", acceptLanguages := "", appCachePath := some "",
        textSizePercent := 2147483647,
        defaultVideoPosterUrl := some "https://\t\n/𝄞", layoutAlgorithm := .textAutosizing }
    s.validate = .ok () ∧ Settings.load s.toDocument = .ok s) ∧
    (let p : Preferences :=
      { defaultVideoPosterUrl := some "\\u0041", defaultFontSize := -2147483648, defaultFixedFontSize := 2147483647 }
    Preferences.parse p.toDocument = .ok p ∧ Preferences.parse p.toPrettyDocument = .ok p) ∧
    let s : Suggestion := { value := "\\\"", label := "😀\x7f", icon := "", frontendId := -1 }
    Suggestion.parse s.toDocument = .ok s := by
  obtain ⟨hsettings, hpreferences, hsuggestion⟩ := documents_restore_records
  refine ⟨?_, hpreferences _ rfl, hsuggestion _⟩
  intro s
  have hvalid : s.validate = .ok () := Settings.validate_eq_ok_iff.2 (by decide +kernel)
  exact ⟨hvalid, hsettings s hvalid rfl rfl⟩

end SettingsRelay
