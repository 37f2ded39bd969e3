import SettingsRelay.Proofs.Plan
import SettingsRelay.Proofs.Reachability
import SettingsRelay.Proofs.Sequence

/-!
# Empty user agents

The setter takes an empty user agent for none, so that the engine's own is used again. A record that comes in as
a whole is stored as it is: from a document, or when all settings are replaced. What bridges pass on is what the
host has. So the empty user agent reaches the engine from where it came in with a record, and from nowhere else.

Where a host does answer with it, it is passed on like any other: a living session is given an empty user agent
and its entries are marked, where the setter would have had the engine's own used.
-/

namespace SettingsRelay

variable {σ : Type} {α : Type}

open World (Audited Balanced EvolvesBy Undisturbed)

/-! ## Where an empty user agent comes from -/

theorem Change.userAgent_apply_ne (change : Change) {s : Settings} (h : s.userAgent ≠ some "") :
    (change.apply s).userAgent ≠ some "" := by
  cases change with
  | userAgent agent =>
    intro hempty
    have hfilter := Option.filter_eq_some_iff.1 hempty
    simp at hfilter
  | _ => exact h

namespace Edit

theorem eq_replace_of_agent? {edit : Edit} (h : edit.agent? = some (some "")) :
    ∃ s : Settings, edit = replace s ∧ s.validate = .ok () ∧ s.userAgent = some "" := by
  unfold agent? at h
  split at h
  · next htaken =>
    cases edit with
    | replace s =>
      rw [isTaken] at htaken
      cases hvalid : s.validate with
      | ok _ => exact ⟨s, rfl, hvalid, Option.some_inj.1 h⟩
      | error _ => rw [hvalid] at htaken; cases htaken
    | set change =>
      cases change with
      | userAgent agent =>
        exact absurd (Option.some_inj.1 h) ((Change.userAgent agent).userAgent_apply_ne (s := {}) (by simp))
      | _ => cases h
  · cases h

theorem agent?_replace {s : Settings} (h : s.validate = .ok ()) : (replace s).agent? = some s.userAgent := by
  unfold agent?
  rw [if_pos (by rw [isTaken, h]; rfl)]

theorem userAgent_applyAll_of_none {edits : List Edit} (h : ∀ e ∈ edits, e.agent? = none) (s : Settings) :
    (applyAll edits s).userAgent = s.userAgent := by
  induction edits generalizing s with
  | nil => rfl
  | cons edit rest ih =>
    exact (ih (fun e he => h e (List.mem_cons_of_mem _ he)) _).trans
      (userAgent_apply_of_none (h edit List.mem_cons_self) s)

/-- After any edits the user agent is empty exactly if the last one that brought a user agent in replaced all
settings by some with an empty one, or if none did and it was empty at the start. -/
theorem empty_applyAll_iff (edits : List Edit) (s : Settings) :
    (applyAll edits s).userAgent = some "" ↔
      (∃ before settings after, edits = before ++ replace settings :: after ∧ settings.validate = .ok () ∧
        settings.userAgent = some "" ∧ ∀ e ∈ after, e.agent? = none) ∨
      s.userAgent = some "" ∧ ∀ e ∈ edits, e.agent? = none := by
  constructor
  · induction edits generalizing s with
    | nil => exact fun h => .inr ⟨h, List.forall_mem_nil _⟩
    | cons edit rest ih =>
      intro h
      rcases ih (edit.apply s) h with ⟨before, settings, after, rfl, hrest⟩ | ⟨hempty, hnone⟩
      · exact .inl ⟨edit :: before, settings, after, rfl, hrest⟩
      · cases hagent : edit.agent? with
        | none =>
          rw [userAgent_apply_of_none hagent] at hempty
          exact .inr ⟨hempty, List.forall_mem_cons.2 ⟨hagent, hnone⟩⟩
        | some agent =>
          rw [userAgent_apply hagent] at hempty
          obtain ⟨settings, rfl, hvalid, hsettings⟩ := eq_replace_of_agent? (hempty ▸ hagent)
          exact .inl ⟨[], settings, rest, rfl, hvalid, hsettings, hnone⟩
  · rintro (⟨before, settings, after, rfl, hvalid, hempty, hnone⟩ | ⟨hempty, hnone⟩)
    · rw [applyAll, List.foldl_append]
      refine (userAgent_applyAll_of_none hnone _).trans ?_
      rw [userAgent_apply (agent?_replace hvalid), hempty]
    · rw [userAgent_applyAll_of_none hnone, hempty]

end Edit

/-! ## Tidy hosts -/

/-- A host in memory whose user agent is not the empty one. -/
structure World.IsTidy (h : HostRef) (w : World σ) : Prop where
  made : h.index < w.next
  isInMemory : (w.hosts h).isInMemory = true
  agent : (w.hosts h).settings.userAgent ≠ some ""

/-- Whether a deed does not replace the settings of a host by some with an empty user agent. -/
def Deed.IsTidy (h : HostRef) : Deed → Prop
  | setSettings k s => k = h → s.userAgent ≠ some ""
  | _ => True

namespace World.IsTidy

variable {h : HostRef} {w v : World σ}

theorem userAgent (hw : w.IsTidy h) : (w.hosts h).userAgent ≠ some "" := by
  have hmemory := hw.isInMemory
  have hagent := hw.agent
  cases hhost : w.hosts h with
  | memory s a =>
    rw [hhost] at hagent
    exact hagent
  | custom s o =>
    rw [hhost] at hmemory
    cases hmemory

theorem of_undisturbed (hsame : Undisturbed w v) (hw : w.IsTidy h) : v.IsTidy h := by
  obtain ⟨a, ha⟩ := hsame.hosts h
  refine ⟨hw.made.trans_le hsame.next, ?_, ?_⟩ <;> rw [ha]
  · rw [Host.isInMemory_withAttached, hw.isInMemory]
  · rw [Host.settings_withAttached]
    exact hw.agent

theorem of_hosts (hw : w.IsTidy h) (hnext : w.next ≤ v.next) (hhost : v.hosts h = w.hosts h) : v.IsTidy h where
  made := hw.made.trans_le hnext
  isInMemory := hhost ▸ hw.isInMemory
  agent := hhost ▸ hw.agent

theorem withSettings (hw : w.IsTidy h) {k : HostRef} {f : Host → Settings}
    (hf : k = h → (f (w.hosts h)).userAgent ≠ some "") :
    (w.changeHost k fun host => host.withSettings (f host)).IsTidy h := by
  by_cases hk : h = k
  · subst hk
    have hhost : (w.changeHost h fun host => host.withSettings (f host)).hosts h =
        (w.hosts h).withSettings (f (w.hosts h)) := replaceAt_self _ _ _
    refine ⟨hw.made, ?_, ?_⟩ <;> rw [hhost]
    · rw [Host.isInMemory_withSettings, hw.isInMemory]
    · rw [Host.settings_withSettings]
      exact hf rfl
  · exact hw.of_hosts (Nat.le_refl _) (replaceAt_of_ne hk)

end World.IsTidy

def Tenet.tidy (h : HostRef) (past : Diary) : Tenet Diary where
  holds w := w.IsTidy h ∧ ∀ page ∈ w.embedder, page ∈ past ∨ page.2.IsTidy h
  of_undisturbed hsame hw := ⟨hw.1.of_undisturbed hsame, hsame.embedder.symm ▸ hw.2⟩

theorem Deed.IsTidy.respects {h : HostRef} {deed : Deed} (hdeed : deed.IsTidy h) (past : Diary) :
    deed.Respects (.tidy h past) := by
  cases deed with
  | makeHost | makeCustomHost =>
    intro w hw
    have hne : h ≠ ⟨w.next⟩ := fun heq => hw.1.made.ne (congrArg Ref.index heq)
    exact ⟨hw.1.of_hosts (Nat.le_succ _) (replaceAt_of_ne hne), hw.2⟩
  | set k change =>
    intro _ w hw
    refine ⟨hw.1.withSettings (f := fun host => change.apply host.settings) fun _ => ?_, hw.2⟩
    exact change.userAgent_apply_ne hw.1.agent
  | setSettings k s =>
    intro _ w hw
    exact ⟨hw.1.withSettings (f := fun _ => s) hdeed, hw.2⟩
  | customize k s o =>
    intro w hcustom hw
    have hne : h ≠ k := by
      rintro rfl
      rw [hw.1.isInMemory] at hcustom
      cases hcustom
    exact ⟨hw.1.of_hosts (Nat.le_refl _) (replaceAt_of_ne hne), hw.2⟩
  | _ => trivial

def Deed.IsDueTidily (h : HostRef) (w : World σ) (deed : Deed) : Prop := deed.IsDue w ∧ deed.IsTidy h

theorem World.isTidy_bare {h : HostRef} {w : World σ} : w.bare.IsTidy h ↔ w.IsTidy h :=
  ⟨fun ⟨hmade, hmemory, hagent⟩ => ⟨hmade, hmemory, hagent⟩, fun ⟨hmade, hmemory, hagent⟩ => ⟨hmade, hmemory, hagent⟩⟩

theorem Tenet.tidy_noted {h : HostRef} {past : Diary} {w : World Diary} (hw : (Tenet.tidy h past).holds w)
    (c : Option Call) : (Tenet.tidy h past).holds (w.noted Diary.note c) :=
  ⟨hw.1.of_hosts (Nat.le_refl _) rfl, List.forall_mem_cons.2 ⟨.inr (World.isTidy_bare.2 hw.1), hw.2⟩⟩

/-- A host stays tidy, and is so whenever the application sees it. -/
theorem World.EvolvesBy.tidy {h : HostRef} {w v : World Diary} {debts : List Share}
    (hevolves : EvolvesBy (Deed.IsDueTidily h) Diary.note w v) (past : Diary)
    (hw : Audited (.tidy h past) debts w) : Audited (.tidy h past) debts v :=
  hevolves.audited (fun _ _ hdeed => ⟨hdeed.1, hdeed.2.respects past⟩) (fun c _ _ ha => Tenet.tidy_noted ha.2 c)
    debts hw

theorem Reaction.isFair_tidy {h : HostRef} {react : Reaction Diary}
    (hreact : ∀ c u, EvolvesBy (Deed.IsDueTidily h) Diary.note (u.noted Diary.note (some c)) (react c u))
    (past : Diary) : react.IsFair (.tidy h past) := fun c _ w hw =>
  (hreact c w).tidy past ⟨hw.1.of_same rfl rfl fun _ => rfl, Tenet.tidy_noted hw.2 (some c)⟩

/-! ## What bridges pass on -/

/-- Whether a call that passes a user agent on, or tells of an entry whether there is one, says what a host has
answered. -/
def Call.Reflects (agent : Option String) : Call → Prop
  | userAgent _ passed => agent = some passed
  | entry _ _ overriding => overriding = agent.isSome
  | _ => True

/-- Whether calls say what a host has answered while it was tidy. -/
def World.Passes (σ : Type) (h : HostRef) (cs : List Call) : Prop :=
  ∀ c ∈ cs, ∃ u : World σ, u.IsTidy h ∧ c.Reflects (u.hosts h).userAgent

namespace Bridge

variable {react : Reaction σ} {w : World σ} (b : BridgeRef) {h : HostRef} {cs : List Call}

theorem passes_of_reflects (hw : w.IsTidy h) (hcs : ∀ c ∈ cs, c.Reflects (w.hosts h).userAgent) :
    World.Passes σ h cs := fun c hc => ⟨w, hw, hcs c hc⟩

theorem passes_nil : World.Passes σ h [] := fun _ hc => nomatch hc

theorem passes_ite {p : Prop} [Decidable p] (hcs : p → World.Passes σ h cs) :
    World.Passes σ h (if p then cs else []) := by
  split
  · next hp => exact hcs hp
  · exact passes_nil

theorem reflects_partCalls (react : Reaction σ) (h : HostRef) (part : Part) (w : World σ) :
    ∀ c ∈ part.calls react b h w, c.Reflects (w.hosts h).userAgent := by
  intro c hc
  cases part with
  | pageScale =>
    rw [Part.calls, pageScaleCalls] at hc
    split at hc
    · rw [List.mem_singleton.1 hc]
      trivial
    · cases hc
  | preferences =>
    rw [Part.calls, preferencesCalls] at hc
    split at hc
    · split at hc
      · rw [List.mem_singleton.1 hc]
        trivial
      · cases hc
    · cases hc
  | userAgent =>
    rw [Part.calls, userAgentCalls] at hc
    split at hc
    · rcases List.mem_append.1 hc with hagent | hentry
      · obtain ⟨agent, hanswer, rfl⟩ := Option.map_eq_some_iff.1 (Option.mem_toList.1 hagent)
        exact hanswer
      · obtain ⟨index, _, rfl⟩ := List.mem_map.1 hentry
        rfl
    · cases hc
  | formData => cases hc

theorem settles_push {I : Tenet σ} (h : HostRef) (part : Part) : (part.push b h : Op σ Unit).Settles I [] := by
  cases part with
  | pageScale => exact settles_pushPageScale b h
  | preferences => exact settles_pushPreferences b
  | userAgent => exact settles_pushUserAgent b h
  | formData => exact settles_pushFormData b h

section Fair

variable {I : Tenet σ} {debts : List Share} (htidy : ∀ w : World σ, I.holds w → w.IsTidy h) (hfair : react.IsFair I)

include htidy hfair

theorem passes_partCalls (parts : List Part) :
    ∀ {w : World σ}, Audited I debts w → World.Passes σ h (partCalls react b h parts w) := by
  induction parts with
  | nil => exact fun _ => passes_nil
  | cons part rest ih =>
    intro w hw c hc
    rcases List.mem_append.1 hc with hpart | hrest
    · exact passes_of_reflects (htidy w hw.2) (reflects_partCalls b react h part w) c hpart
    · exact ih (settles_push b h part w react debts hfair hw) c hrest

/-- Of whatever a bridge calls for, what concerns the user agent is what its host has answered. -/
theorem passes_perform (action : BridgeAction) (hw : Audited I debts w) (hhost : (w.bridges b).host = h) :
    World.Passes σ h ((action.perform b).calls react w) := by
  subst hhost
  have hone : ∀ part : Part, World.Passes σ (w.bridges b).host
      (part.calls react b (w.bridges b).host (w.acquire .call (w.bridges b).host.object)) := fun part =>
    passes_of_reflects (w := w.acquire .call (w.bridges b).host.object)
      ((htidy w hw.2).of_hosts (Nat.le_refl _) rfl) (reflects_partCalls b react _ part _)
  have hall : w.isAlive (w.bridges b).host.object = true → World.Passes σ (w.bridges b).host
      (partCalls react b (w.bridges b).host Part.all (w.acquire .call (w.bridges b).host.object)) := fun halive =>
    passes_partCalls b htidy hfair Part.all (Op.audited_acquire hw (.inl halive))
  cases action with
  | updateEverything | renderViewCreated =>
    exact (makes_updateEverything react b w).calls ▸ passes_ite hall
  | updatePageScale =>
    exact (makes_withHost b (makes_pushPageScale b _)).calls ▸ passes_ite fun _ => hone .pageScale
  | updatePreferences =>
    exact (makes_ifHosted b (makes_pushPreferences b)).calls ▸ passes_ite fun _ =>
      passes_of_reflects (htidy w hw.2) (reflects_partCalls b react _ .preferences w)
  | updateUserAgent =>
    exact (makes_withHost b (makes_pushUserAgent b _)).calls ▸ passes_ite fun _ => hone .userAgent
  | updateFormData => exact (makes_withHost b (makes_pushFormData b _)).calls ▸ passes_ite fun _ => passes_nil
  | updateAcceptLanguages =>
    refine (makes_withHost b (makes_pushAcceptLanguages b _)).calls ▸ passes_ite fun _ => ?_
    refine passes_of_reflects (htidy w hw.2) fun c hc => ?_
    unfold languageCalls at hc
    split at hc
    · rw [List.mem_singleton.1 hc]
      trivial
    · cases hc
  | resetScroll =>
    refine (makes_resetScroll b).calls ▸ passes_ite fun _ => passes_of_reflects (htidy w hw.2) fun c hc => ?_
    obtain ⟨s, _, rfl⟩ := Option.map_eq_some_iff.1 (Option.mem_toList.1 hc)
    trivial

end Fair

theorem passes_populate (p : Preferences) (hw : w.IsTidy h) : World.Passes σ h ((populate b p).calls react w) := by
  refine (makes_populate b p).calls ▸ passes_ite fun _ => passes_of_reflects hw fun c hc => ?_
  obtain ⟨s, _, rfl⟩ := Option.map_eq_some_iff.1 (Option.mem_toList.1 hc)
  trivial

/-- An empty user agent is passed on like any other. -/
theorem calls_updateUserAgent (hhost : w.isAlive (w.bridges b).host.object = true)
    (hsession : w.isAlive (w.bridges b).session.object = true) :
    (updateUserAgent b).calls react w =
      ((w.hosts (w.bridges b).host).userAgent.map (.userAgent (w.receiver (w.bridges b).session))).toList ++
        Session.entryCalls (w.receiver (w.bridges b).session) (w.hosts (w.bridges b).host).userAgent.isSome
          ((identified b (w.bridges b).host react (w.acquire .call (w.bridges b).host.object)).sessions
            (w.receiver (w.bridges b).session)).entries.length := by
  have hkept : (w.acquire .call (w.bridges b).host.object).isAlive (w.bridges b).session.object = true :=
    World.isAlive_acquire_of_alive hsession
  refine (makes_withHost b (makes_pushUserAgent b _)).calls.trans ?_
  rw [if_pos hhost]
  exact if_pos hkept

end Bridge

/-- What is said while a host is tidy is never an empty user agent, and an entry is marked only for another. -/
theorem World.Passes.tidy {h : HostRef} {cs : List Call} (hcs : World.Passes σ h cs) :
    (∀ r, .userAgent r "" ∉ cs) ∧ ∀ r index, .entry r index true ∈ cs →
      ∃ (u : World σ) (agent : String), (u.hosts h).userAgent = some agent ∧ agent ≠ "" := by
  constructor
  · intro r hc
    obtain ⟨u, hu, hreflects⟩ := hcs _ hc
    exact hu.userAgent hreflects
  · intro r index hc
    obtain ⟨u, hu, hreflects⟩ := hcs _ hc
    obtain ⟨agent, hagent⟩ := Option.isSome_iff_exists.1 (Eq.symm hreflects)
    refine ⟨u, agent, hagent, ?_⟩
    rintro rfl
    exact hu.userAgent hagent

/-- A user agent is empty exactly if it came in so with a record that was stored as a whole. As long as none did, no
operation of a bridge calls for an empty one. -/
theorem empty_agents_come_in_records :
    (∀ (edits : List Edit) (s : Settings), (Edit.applyAll edits s).userAgent = some "" ↔
      (∃ before settings after, edits = before ++ .replace settings :: after ∧ settings.validate = .ok () ∧
        settings.userAgent = some "" ∧ ∀ e ∈ after, e.agent? = none) ∨
      s.userAgent = some "" ∧ ∀ e ∈ edits, e.agent? = none) ∧
    (∀ {h : HostRef} {w v : World Diary} {debts : List Share}, w.Balanced debts → w.IsTidy h →
      EvolvesBy (Deed.IsDueTidily h) Diary.note w v →
        v.Balanced debts ∧ v.IsTidy h ∧ ∀ page ∈ v.embedder, page ∈ w.embedder ∨ page.2.IsTidy h) ∧
    (∀ {h : HostRef} {w : World Diary} {debts : List Share} {b : BridgeRef} {cs : List Call} (react : Reaction Diary),
      w.Balanced debts → w.IsTidy h → (w.bridges b).host = h →
      (∀ c u, EvolvesBy (Deed.IsDueTidily h) Diary.note (u.noted Diary.note (some c)) (react c u)) →
      ((∃ action : BridgeAction, (action.perform b).calls react w = cs) ∨
        ∃ p, (Bridge.populate b p).calls react w = cs) →
        (∀ r, .userAgent r "" ∉ cs) ∧ ∀ r index, .entry r index true ∈ cs →
          ∃ (u : World Diary) (agent : String), (u.hosts h).userAgent = some agent ∧ agent ≠ "") ∧
    ∀ (react : Reaction σ) (w : World σ) (b : BridgeRef),
      w.isAlive (w.bridges b).host.object = true → w.isAlive (w.bridges b).session.object = true →
      ∃ count, (Bridge.updateUserAgent b).calls react w =
        ((w.hosts (w.bridges b).host).userAgent.map (.userAgent (w.receiver (w.bridges b).session))).toList ++
          Session.entryCalls (w.receiver (w.bridges b).session) (w.hosts (w.bridges b).host).userAgent.isSome
            count := by
  refine ⟨Edit.empty_applyAll_iff, fun {h w v debts} hbalanced htidy hevolves => ?_,
    fun {h w debts b cs} react hbalanced htidy hhost hreact hcs => ?_,
    fun react w b hhost hsession => ⟨_, Bridge.calls_updateUserAgent b hhost hsession⟩⟩
  · obtain ⟨hafter, hholds, hpages⟩ :=
      hevolves.tidy w.embedder ⟨hbalanced, htidy, fun page hpage => .inl hpage⟩
    exact ⟨hafter, hholds, hpages⟩
  · have haudited : Audited (.tidy h w.embedder) debts w := ⟨hbalanced, htidy, fun page hpage => .inl hpage⟩
    refine World.Passes.tidy (σ := Diary) ?_
    rcases hcs with ⟨action, rfl⟩ | ⟨p, rfl⟩
    · have hholds : ∀ u : World Diary, (Tenet.tidy h w.embedder).holds u → u.IsTidy h := fun _ hu => hu.1
      exact Bridge.passes_perform b hholds (Reaction.isFair_tidy hreact w.embedder) action haudited hhost
    · exact Bridge.passes_populate b p htidy

/-- While a user agent is given to the engine it is taken back with an empty one, and nothing but marks follows. When
a record with an empty one is stored instead, the engine is given that. -/
theorem empty_agent_passed_on : ∃ w v u : World Diary,
    EvolvesBy Deed.IsDue Diary.note { embedder := [] } w ∧ w.IsTidy ⟨2⟩ ∧
    EvolvesBy (Deed.IsDueTidily ⟨2⟩) Diary.note w v ∧ v.IsTidy ⟨2⟩ ∧ (v.hosts ⟨2⟩).userAgent = none ∧
    (∀ page ∈ v.embedder, page ∈ w.embedder ∨ page.2.IsTidy ⟨2⟩) ∧
    (∀ r, .userAgent r "" ∉ (Bridge.updateUserAgent ⟨3⟩).calls (fun c u => u.noted Diary.note (some c)) v) ∧
    EvolvesBy Deed.IsDue Diary.note v u ∧
    (Bridge.updateUserAgent ⟨3⟩).calls (fun c u => u.noted Diary.note (some c)) u =
      [.userAgent ⟨1⟩ "", .entry ⟨1⟩ 0 true] := by
  let note : Reaction Diary := fun c u => u.noted Diary.note (some c)
  let deeds : List Deed :=
    [.makeContext {} none, .makeSession { id := ⟨7⟩, entries := [false] }, .makeHost { userAgent := some "relay" },
      .makeBridge ⟨0⟩ ⟨1⟩ ⟨2⟩, .attach ⟨2⟩ ⟨3⟩]
  let back : Deed := .set ⟨2⟩ (.userAgent (some ""))
  let react : Reaction Diary := fun c u => World.after Diary.note [back] (u.noted Diary.note (some c))
  let store : Deed := .setSettings ⟨2⟩ { userAgent := some "" }
  let w : World Diary := World.after Diary.note deeds { embedder := [] }
  let v : World Diary := ((Deed.act ⟨3⟩ .updateUserAgent).perform.outcome react w).2.noted Diary.note none
  let u : World Diary := World.after Diary.note [store] v
  have hw : EvolvesBy Deed.IsDue Diary.note { embedder := [] } w :=
    World.evolvesBy_after Diary.note deeds (by simp [deeds, Deed.IsDue]) (.still _)
  have hbalanced : w.Balanced [] := hw.balanced (.initial [])
  have htidy : w.IsTidy ⟨2⟩ := ⟨by decide +kernel, by decide +kernel, by decide +kernel⟩
  have hv : EvolvesBy (Deed.IsDueTidily ⟨2⟩) Diary.note w v := .deed (.still w) (.act ⟨3⟩ .updateUserAgent)
    ⟨trivial, trivial⟩ react fun c u =>
      World.evolvesBy_after Diary.note [back] (by simp [back, Deed.IsDueTidily, Deed.IsDue, Deed.IsTidy]) (.still _)
  obtain ⟨_, hkept, hoperation, _⟩ := empty_agents_come_in_records (σ := Diary)
  obtain ⟨hvBalanced, hvTidy, hpages⟩ := hkept hbalanced htidy hv
  obtain ⟨hspared, _⟩ := hoperation (b := ⟨3⟩) note hvBalanced hvTidy (by decide +kernel)
    (fun c u => .still _) (.inl ⟨.updateUserAgent, rfl⟩)
  have hu : EvolvesBy Deed.IsDue Diary.note v u :=
    World.evolvesBy_after Diary.note [store] (by simp [store, Deed.IsDue]) (.still _)
  exact ⟨w, v, u, hw, htidy, hv, hvTidy, by decide +kernel, hpages, hspared, hu, by decide +kernel⟩

end SettingsRelay
