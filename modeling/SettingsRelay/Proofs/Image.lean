import SettingsRelay.Preferences.Population
import SettingsRelay.Proofs.Edit

/-!
# The image of a host in an engine

The part of an engine that updates change, and what each update makes of it. Every setting belongs
to one channel, and what the other channels carry does not depend on it. That is why an engine that
mirrored the settings before a change mirrors the changed ones after an update through the channel
of that change alone.
-/

namespace SettingsRelay

/-- What an engine shows: page scale and text zoom, the preferences that apply, the user agent, the marks of the
navigation entries, and whether form data are saved. -/
structure Image where
  pageScale : Option Single
  textZoom : Option Single
  record : Preferences
  userAgent : Option String
  entries : List Bool
  saveFormData : Bool

namespace Image

theorem getElem?_foldl_set (indices : List Nat) (x : Bool) (l : List Bool) (k : Nat) :
    (indices.foldl (fun l index => l.set index x) l)[k]? =
      if k ∈ indices ∧ k < l.length then some x else l[k]? := by
  induction indices generalizing l with
  | nil => simp
  | cons index rest ih =>
    rw [List.foldl_cons, ih, List.length_set]
    by_cases hrest : k ∈ rest ∧ k < l.length
    · rw [if_pos hrest, if_pos ⟨List.mem_cons_of_mem _ hrest.1, hrest.2⟩]
    · rw [if_neg hrest]
      by_cases hindex : k = index
      · subst hindex
        by_cases hk : k < l.length <;> simp [hk]
      · rw [List.getElem?_set_ne (Ne.symm hindex), if_neg]
        rintro ⟨hmem, hk⟩
        rcases List.mem_cons.1 hmem with heq | hmem
        · exact hindex heq
        · exact hrest ⟨hmem, hk⟩

theorem foldl_set_range (x : Bool) (l : List Bool) :
    (List.range l.length).foldl (fun l index => l.set index x) l = List.replicate l.length x := by
  apply List.ext_getElem?
  intro k
  rw [getElem?_foldl_set, List.getElem?_replicate]
  by_cases hk : k < l.length
  · rw [if_pos ⟨List.mem_range.2 hk, hk⟩, if_pos hk]
  · rw [if_neg fun h => hk h.2, if_neg hk, List.getElem?_eq_none (Nat.le_of_not_lt hk)]

def withPageScale (s : Settings) (i : Image) : Image :=
  { i with pageScale := some (initialPageScale s.initialPageScalePercent s.dipScale) }

def withPreferences (switches : Switches) (s : Settings) (i : Image) : Image :=
  { i with
    textZoom := some (TextZoom.ofPercent s.textSizePercent s.textAutosizingEnabled).factor
    record := i.record.populated (.memory s none) switches }

/-- Without a user agent in the settings an engine keeps the one that it has, unmarked. -/
def withUserAgent (s : Settings) (i : Image) : Image :=
  { i with
    userAgent := s.userAgent.or i.userAgent
    entries := List.replicate i.entries.length s.userAgent.isSome }

def withFormData (s : Settings) (i : Image) : Image := { i with saveFormData := s.saveFormData }

def refreshed (switches : Switches) (s : Settings) (channel : Channel) (i : Image) : Image :=
  match channel with
  | .preferences => i.withPreferences switches s
  | .userAgent => i.withUserAgent s
  | .pageScale => i.withPageScale s
  | .formData => i.withFormData s
  | .acceptLanguages => i
  | .everything => (((i.withPageScale s).withPreferences switches s).withUserAgent s).withFormData s

/-- The engine, which has `n` navigation entries, is as the settings would have it. -/
structure Mirrors (switches : Switches) (n : Nat) (s : Settings) (i : Image) : Prop where
  pageScale : i.pageScale = some (initialPageScale s.initialPageScalePercent s.dipScale)
  textZoom : i.textZoom = some (TextZoom.ofPercent s.textSizePercent s.textAutosizingEnabled).factor
  record : ∃ p : Preferences, i.record = p.populated (.memory s none) switches
  userAgent : ∀ agent, s.userAgent = some agent → i.userAgent = some agent
  entries : i.entries = List.replicate n s.userAgent.isSome
  saveFormData : i.saveFormData = s.saveFormData

variable {switches : Switches} {n : Nat} {s : Settings} {i : Image}

theorem mirrors_everything (hn : i.entries.length = n) :
    (i.refreshed switches s .everything).Mirrors switches n s where
  pageScale := rfl
  textZoom := rfl
  record := ⟨i.record, rfl⟩
  userAgent agent hagent := by
    change s.userAgent.or i.userAgent = some agent
    rw [hagent, Option.some_or]
  entries := by rw [← hn]; rfl
  saveFormData := rfl

namespace Mirrors

theorem length_entries (h : i.Mirrors switches n s) : i.entries.length = n := by
  rw [h.entries, List.length_replicate]

/-- The channel of a change carries all that depends on the setting. -/
theorem change (h : i.Mirrors switches n s) (change : Change) :
    (i.refreshed switches (change.apply s) change.channel).Mirrors switches n (change.apply s) := by
  cases change with
  | userAgent agent =>
    refine ⟨h.pageScale, h.textZoom, h.record, fun given hgiven => ?_, ?_, h.saveFormData⟩
    · change (Option.or _ i.userAgent) = some given
      rw [hgiven, Option.some_or]
    · rw [← h.length_entries]
      rfl
  | initialPageScale percent =>
    exact ⟨rfl, h.textZoom, h.record, h.userAgent, h.entries, h.saveFormData⟩
  | saveFormData enabled =>
    exact ⟨h.pageScale, h.textZoom, h.record, h.userAgent, h.entries, rfl⟩
  | acceptLanguages languages =>
    exact ⟨h.pageScale, h.textZoom, h.record, h.userAgent, h.entries, h.saveFormData⟩
  | javascriptEnabled | imagesEnabled | loadsImagesAutomatically | domStorageEnabled | databaseEnabled
  | useWideViewport | quirksModeEnabled | layoutAlgorithm | textZoom | defaultFontSize
  | defaultFixedFontSize =>
    exact ⟨h.pageScale, rfl, ⟨i.record, rfl⟩, h.userAgent, h.entries, h.saveFormData⟩

theorem edit (h : i.Mirrors switches n s) (edit : Edit) :
    (i.refreshed switches (edit.store s) edit.channel).Mirrors switches n (edit.store s) := by
  cases edit with
  | set change => exact h.change change
  | replace settings => exact mirrors_everything h.length_entries

end Mirrors

end Image

end SettingsRelay
