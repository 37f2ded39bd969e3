import SettingsRelay.Proofs.Farewell
import SettingsRelay.Proofs.Population

/-!
# Valid settings stay valid

A change brings its value into range or is ignored, and settings that replace others are checked first. So a
host in memory that has valid settings once has valid settings ever after, between deeds and in the calls of any
of them, and what bridges fill in from them is within the ranges that an engine accepts: both font sizes are
from 1 to 72, and the zoom is that of a positive text size.
-/

namespace SettingsRelay

variable {σ : Type}

open World (Move)

namespace Settings

theorem validate_of_load {text : String} {s : Settings} (h : load text = .ok s) :
    s.validate = .ok () := by
  unfold load at h
  split at h
  · next read _ =>
    unfold validated at h
    split at h
    · next hvalid =>
      cases h
      exact hvalid
    · cases h
  · cases h

theorem acceptsFontSize_clipFontSize (size : Int32) : acceptsFontSize (clipFontSize size) = true := by
  unfold clipFontSize acceptsFontSize
  split
  · decide
  · split
    · decide
    · next hmin hmax =>
      simp only [Bool.and_eq_true, decide_eq_true_eq]
      exact ⟨Int32.not_lt.1 hmin, Int32.not_lt.1 hmax⟩

theorem acceptsFontSize_iff {size : Int32} : acceptsFontSize size = true ↔ 1 ≤ size ∧ size ≤ 72 := by
  unfold acceptsFontSize
  rw [Bool.and_eq_true, decide_eq_true_eq, decide_eq_true_eq]
  rfl

end Settings

/-- No change that is made takes a setting out of its range, whatever its argument. -/
theorem Change.validate_apply {change : Change} {s : Settings} (htaken : change.isTaken = true)
    (hvalid : s.validate = .ok ()) : (change.apply s).validate = .ok () := by
  rw [Settings.validate_eq_ok_iff] at hvalid ⊢
  obtain ⟨hfont, hfixed, htext, hscale, hdip⟩ := hvalid
  cases change with
  | textZoom percent =>
    have hpositive : 0 < percent := of_decide_eq_true htaken
    exact ⟨hfont, hfixed, Int32.not_le.2 hpositive, hscale, hdip⟩
  | defaultFontSize size =>
    exact ⟨Settings.acceptsFontSize_clipFontSize size, hfixed, htext, hscale, hdip⟩
  | defaultFixedFontSize size =>
    exact ⟨hfont, Settings.acceptsFontSize_clipFontSize size, htext, hscale, hdip⟩
  | initialPageScale percent => exact ⟨hfont, hfixed, htext, htaken, hdip⟩
  | _ => exact ⟨hfont, hfixed, htext, hscale, hdip⟩

structure Host.IsSound (h : Host) : Prop where
  isInMemory : h.isInMemory = true
  valid : h.settings.validate = .ok ()

namespace Host.IsSound

theorem withSettings {h : Host} {s : Settings} (hsound : h.IsSound) (hvalid : s.validate = .ok ()) :
    (h.withSettings s).IsSound where
  isInMemory := (isInMemory_withSettings s h).trans hsound.isInMemory
  valid := by cases h <;> exact hvalid

theorem withAttached {h : Host} (hsound : h.IsSound) (b : Option BridgeRef) :
    (h.withAttached b).IsSound where
  isInMemory := (isInMemory_withAttached b h).trans hsound.isInMemory
  valid := (congrArg Settings.validate (settings_withAttached b h)).trans hsound.valid

end Host.IsSound

namespace World

/-- In the later world everything has been made that had been made in the earlier one, and hosts
that were sound are sound. -/
structure StaysSound (later earlier : World σ) : Prop where
  next : earlier.next ≤ later.next
  sound : ∀ h : HostRef, h.index < earlier.next → (earlier.hosts h).IsSound → (later.hosts h).IsSound

namespace StaysSound

variable {w v u : World σ}

theorem refl (w : World σ) : StaysSound w w := ⟨Nat.le_refl _, fun _ _ h => h⟩

theorem trans (hwv : StaysSound w v) (hvu : StaysSound v u) : StaysSound w u where
  next := hvu.next.trans hwv.next
  sound h hlt hsound := hwv.sound h (hlt.trans_le hvu.next) (hvu.sound h hlt hsound)

theorem of_changeHost {h : HostRef} {f : Host → Host} (hf : (w.hosts h).IsSound → (f (w.hosts h)).IsSound) :
    StaysSound (w.changeHost h f) w where
  next := Nat.le_refl _
  sound k _ hsound := by
    rw [hosts_changeHost]
    split
    · next hk =>
      rw [hk] at hsound ⊢
      exact hf hsound
    · exact hsound

theorem of_makingHost (host : Host) :
    StaysSound (w.making fun (r : HostRef) w => { w with hosts := replaceAt w.hosts r host }) w where
  next := Nat.le_succ _
  sound h hlt hsound := by
    have hne : h ≠ ⟨w.next⟩ := by
      rintro rfl
      exact Nat.lt_irrefl _ hlt
    change (replaceAt w.hosts ⟨w.next⟩ host h).IsSound
    rwa [replaceAt_of_ne hne]

theorem of_hosts (hnext : w.next ≤ v.next) (hhosts : v.hosts = w.hosts) : StaysSound v w where
  next := hnext
  sound h _ hsound := by rwa [hhosts]

theorem of_sheds {holder : Holder} {o : Object} (h : Sheds holder o w v) : StaysSound v w :=
  of_hosts (by rw [h.same]) (by rw [h.same])

/-- A host that is told of an end changes its slot and not its settings. -/
theorem of_parted {holder : Holder} {b : BridgeRef}
    (hdead : (w.withdraw holder b.object).isAlive b.object = false) : StaysSound (w.parted holder b) w where
  next := by rw [parted_eq, bury_eq]
  sound h _ hsound :=
    { isInMemory := (host_parted hdead h).1.trans hsound.isInMemory
      valid := (congrArg Settings.validate (settings_parted w holder b h)).trans hsound.valid }

theorem of_move {call : Option Call} (m : Move w call v) : StaysSound v w := by
  have hnext := m.next_le
  cases m with
  | carry h =>
    cases h with
    | call | lease | hold | agent | entry | saveFormData => exact of_hosts hnext rfl
    | letGo o _ => exact of_sheds (sheds_releaseQuietly w .call o)
  | store | view | suggestions | delegate | remodel => exact of_hosts hnext rfl
  | set h change htaken =>
    exact of_changeHost fun hsound => hsound.withSettings (change.validate_apply htaken hsound.valid)
  | replace h s hvalid => exact of_changeHost fun hsound => hsound.withSettings hvalid
  | attach h b _ _ =>
    refine (of_hosts hnext rfl : StaysSound (w.attach h b) (w.changeHost h _)).trans ?_
    exact of_changeHost fun hsound => hsound.withAttached (some b)
  | customize h s o hcustom =>
    refine of_changeHost fun hsound => ?_
    rw [hsound.isInMemory] at hcustom
    exact Bool.noConfusion hcustom
  | engage s client _ => cases client <;> exact of_hosts hnext rfl
  | dismiss s c => exact of_sheds (sheds_releaseClient w _ c)
  | makeHost s => exact of_makingHost (.memory s none)
  | makeCustomHost s o => exact of_makingHost (.custom s o)
  | makeContext _ service _ | makeClient service _ => exact of_hosts hnext (by cases service <;> rfl)
  | makeSession session _ => exact of_hosts hnext (by cases session.client <;> rfl)
  | makeService | makeView | makeDelegate | makeBridge | keep | withdraw => exact of_hosts hnext rfl
  | drop o _ => exact of_sheds (sheds_releaseQuietly w .embedder o)
  | bury holder b _ hdead => exact of_parted hdead
  | part b c => exact of_sheds (sheds_releaseContext w _ c)

end StaysSound

/-! ## Diaries -/

theorem staysSound_bare {w v : World σ} : StaysSound w.bare v.bare ↔ StaysSound w v :=
  ⟨fun h => ⟨h.next, h.sound⟩, fun h => ⟨h.next, h.sound⟩⟩

/-- What is sound in a world that an application sees is sound in all worlds that it sees later. -/
theorem pairwise_staysSound {w : World Diary} (hw : w.Reached Diary.note []) : w.seen.Pairwise StaysSound := by
  refine hw.invariant (I := fun a => a.seen.Pairwise StaysSound) (fun a call b m ha => ?_) (fun c a ha => ?_)
    (List.pairwise_singleton _ _)
  · obtain ⟨hnow, hbefore⟩ := List.pairwise_cons.1 ha
    rw [seen_of_move m]
    have hlater : StaysSound b.bare a.bare := staysSound_bare.2 (.of_move m)
    exact List.pairwise_cons.2 ⟨fun u hu => hlater.trans (hnow u hu), hbefore⟩
  · rw [seen_noted]
    refine List.pairwise_cons.2 ⟨fun u hu => ?_, ha⟩
    rcases List.mem_cons.1 hu with rfl | hu
    · exact .refl _
    · exact (List.pairwise_cons.1 ha).1 u hu

theorem Evolves.mem_diary {w v : World Diary} (h : Evolves Diary.note w v) {page : Option Call × World Unit}
    (hpage : page ∈ w.embedder) : page ∈ v.embedder := by
  refine h.invariant (I := fun a => page ∈ a.embedder) (fun a call b m ha => ?_) (fun c a ha => ?_) hpage
  · rwa [m.frame.2]
  · exact List.mem_cons_of_mem _ ha

end World

/-! ## What is filled in from valid settings -/

/-- What bridges fill in from the settings of a sound host is within the ranges of an engine. -/
theorem Host.IsSound.fill {h : Host} (hsound : h.IsSound) (switches : Switches) (p : Preferences) :
    let filled := (h.particulars switches).fill p
    let zoom := TextZoom.ofPercent h.settings.textSizePercent h.settings.textAutosizingEnabled
    (1 ≤ filled.defaultFontSize ∧ filled.defaultFontSize ≤ 72) ∧
    (1 ≤ filled.defaultFixedFontSize ∧ filled.defaultFixedFontSize ≤ 72) ∧
    0 < h.settings.textSizePercent ∧
    filled.forceEnableZoom = zoom.forceEnableZoom ∧
    filled.fontScaleFactor = zoom.fontScaleFactor.getD p.fontScaleFactor ∧
    (h.particulars switches).factor = zoom.factor := by
  obtain ⟨hfont, hfixed, htext, _, _⟩ := Settings.validate_eq_ok_iff.1 hsound.valid
  refine ⟨Settings.acceptsFontSize_iff.1 hfont, Settings.acceptsFontSize_iff.1 hfixed,
    Int32.not_le.1 htext, ?_⟩
  cases h with
  | memory s attached => exact ⟨rfl, rfl, rfl⟩
  | custom s o => exact Bool.noConfusion hsound.isInMemory

/-- A host that is made from a document or from valid settings has valid settings wherever an application sees it, and
what bridges fill in from them is within the ranges of an engine. -/
theorem hosts_stay_valid {w : World Diary} (hw : w.Reached Diary.note []) :
    (∀ v ∈ w.seen, ∀ s : Settings, (s.validate = .ok () ∨ ∃ text, Settings.load text = .ok s) → ∀ react,
      let made := (Host.create s).outcome react v
      made.1.index < made.2.next ∧ made.2.hosts made.1 = .memory s none ∧ (made.2.hosts made.1).IsSound) ∧
    (w.seen.Pairwise fun later earlier => ∀ h : HostRef, h.index < earlier.next → (earlier.hosts h).IsSound →
      (later.hosts h).IsSound ∧
      ∀ react, ((Host.readSettings h).outcome react later).1.validate = .ok ()) ∧
    ∀ {τ : Type} (v : World τ) (b : BridgeRef), (v.hosts (v.bridges b).host).IsSound →
      v.isAlive (v.bridges b).host.object = true → v.isAlive (v.bridges b).session.object = true →
      (v.sessions (v.receiver (v.bridges b).session)).hasExtension = true →
      ∀ (react : Reaction τ) (p : Preferences),
        let s := (v.hosts (v.bridges b).host).settings
        let zoom := TextZoom.ofPercent s.textSizePercent s.textAutosizingEnabled
        let filled := ((Bridge.populate b p).outcome react v).1
        (1 ≤ filled.defaultFontSize ∧ filled.defaultFontSize ≤ 72) ∧
        (1 ≤ filled.defaultFixedFontSize ∧ filled.defaultFixedFontSize ≤ 72) ∧
        0 < s.textSizePercent ∧
        filled.forceEnableZoom = zoom.forceEnableZoom ∧
        filled.fontScaleFactor = zoom.fontScaleFactor.getD p.fontScaleFactor ∧
        (Bridge.populate b p).calls react v = [.textZoom (v.receiver (v.bridges b).session) zoom.factor] := by
  refine ⟨fun v _ s hs react => ?_, ?_, fun {τ} v b hsound hhost hsession hextension react p => ?_⟩
  · have hvalid : s.validate = .ok () := by
      rcases hs with hvalid | ⟨text, hload⟩
      · exact hvalid
      · exact Settings.validate_of_load hload
    have hmade : ((Host.create s).outcome react v).2.hosts ((Host.create s).outcome react v).1 = .memory s none :=
      replaceAt_self _ _ _
    exact ⟨Nat.lt_succ_self _, hmade, by rw [hmade]; exact ⟨rfl, hvalid⟩⟩
  · refine (World.pairwise_staysSound hw).imp fun {later earlier} hstays h hlt hsound => ?_
    have hlater := hstays.sound h hlt hsound
    refine ⟨hlater, fun react => ?_⟩
    rw [Host.readSettings, Op.outcome_readHost]
    exact hlater.valid
  · obtain ⟨hfont, hfixed, htext, hforce, hscale, hfactor⟩ :=
      hsound.fill (v.contexts (v.bridges b).context).switches p
    have hcalls := Bridge.calls_populate hhost hsession hextension react p
    have houtcome := Bridge.outcome_populate_served hhost hsession hextension react p
    rw [World.particulars] at hcalls houtcome
    rw [hfactor] at hcalls
    dsimp only
    rw [hcalls, houtcome]
    exact ⟨hfont, hfixed, htext, hforce, hscale, rfl⟩

def wildReaction : Reaction Diary := fun c w =>
  (w.noted Diary.note (some c)).after Diary.note
    [.set ⟨2⟩ (.textZoom (-5)), .set ⟨2⟩ (.initialPageScale .nan), .set ⟨2⟩ (.initialPageScale (.infinity false)),
      .setSettings ⟨2⟩ { dipScale := .nan }, .set ⟨2⟩ (.defaultFixedFontSize (-3))]

/-- While a font size far out of range is carried on, the engine answers with a text zoom below zero,
a page scale that is no number and another font size below the range. -/
theorem host_survives_wild_changes : ∃ w : World Diary, w.Reached Diary.note [] ∧
    (w.bare.hosts ⟨2⟩).IsSound ∧
    (w.bare.hosts ⟨2⟩).settings.defaultFontSize = 72 ∧ (w.bare.hosts ⟨2⟩).settings.defaultFixedFontSize = 1 ∧
    (w.bare.hosts ⟨2⟩).settings.initialPageScalePercent = .zero true ∧
    (Bridge.populate ⟨3⟩ {}).calls (fun _ u => u) w.bare =
      [.textZoom ⟨1⟩ (TextZoom.ofPercent 100 false).factor] := by
  let deeds : List Deed :=
    [.makeContext {} none, .makeSession { id := ⟨7⟩ }, .makeHost { initialPageScalePercent := .zero true },
      .makeBridge ⟨0⟩ ⟨1⟩ ⟨2⟩, .attach ⟨2⟩ ⟨3⟩]
  let v : World Diary := World.after Diary.note deeds { embedder := [] }
  let change : Deed := .set ⟨2⟩ (.defaultFontSize 4000)
  let w : World Diary := (change.perform.outcome wildReaction v).2.noted Diary.note none
  have hv : v.Reached Diary.note [] := World.evolves_after Diary.note deeds (.still _)
  have hduring : ∀ c u, World.Evolves Diary.note (u.noted Diary.note (some c)) (wildReaction c u) :=
    fun c u => World.evolves_after Diary.note _ (.still _)
  have hw : w.Reached Diary.note [] := .deed hv change wildReaction hduring
  obtain ⟨_, hstays, hfill⟩ := hosts_stay_valid hw
  have hpage : (none, v.bare) ∈ w.embedder :=
    (World.Evolves.deed (.still v) change wildReaction hduring).mem_diary (List.mem_cons_self ..)
  have hstart : (v.bare.hosts ⟨2⟩).IsSound :=
    { isInMemory := by decide +kernel
      valid := Settings.validate_eq_ok_iff.2 (by decide +kernel) }
  have hsound : (w.bare.hosts ⟨2⟩).IsSound :=
    ((List.pairwise_cons.1 hstays).1 v.bare (List.mem_map_of_mem hpage) ⟨2⟩ (by decide +kernel) hstart).1
  have hzoom : (w.bare.hosts ⟨2⟩).settings.textSizePercent = 100 ∧
      (w.bare.hosts ⟨2⟩).settings.textAutosizingEnabled = false := by decide +kernel
  have hhost : (w.bare.bridges ⟨3⟩).host = ⟨2⟩ := by decide +kernel
  obtain ⟨_, _, _, _, _, hcalls⟩ := hfill w.bare ⟨3⟩ (hhost ▸ hsound) (by decide +kernel) (by decide +kernel)
    (by decide +kernel) (fun _ u => u) {}
  refine ⟨w, hw, hsound, by decide +kernel, by decide +kernel, by decide +kernel, ?_⟩
  rw [hcalls, hhost, hzoom.1, hzoom.2, show w.bare.receiver (w.bare.bridges ⟨3⟩).session = ⟨1⟩ by decide +kernel]

end SettingsRelay
