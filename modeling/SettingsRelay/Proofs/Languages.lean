import SettingsRelay.Proofs.Application
import SettingsRelay.Proofs.Edit
import SettingsRelay.Proofs.Push

/-!
# The accepted languages

The languages of a host reach the service of its bridge's context when they are set by themselves.
Replacing all settings has everything carried but them, so that from then on the service may have
other languages than the host, until the languages are set again. Which languages the service has
after any edits depends on the setter's calls alone.
-/

namespace SettingsRelay

variable {σ : Type}

open World (Carry)

/-! ## What others leave alone -/

namespace World

variable {h : HostRef} {b : BridgeRef} {p : ServiceRef} {w v u : World σ}

/-- Whoever leads from one world to the other does not edit the host, turn the bridge to another service, store
languages there, or take away the embedder's references to bridge and host. -/
structure Spares (h : HostRef) (b : BridgeRef) (p : ServiceRef) (w v : World σ) : Prop where
  host : v.hosts h = w.hosts h
  bridge : v.bridges b = w.bridges b
  service : (v.contexts (w.bridges b).context).service = (w.contexts (w.bridges b).context).service
  languages : (v.services p).get? acceptLanguagesKey = (w.services p).get? acceptLanguagesKey
  kept : ∀ o, ⟨.embedder, o⟩ ∈ w.shares → o = b.object ∨ o = h.object → ⟨.embedder, o⟩ ∈ v.shares

namespace Spares

theorem refl (w : World σ) : Spares h b p w w := ⟨rfl, rfl, rfl, rfl, fun _ hs _ => hs⟩

theorem trans (hwv : Spares h b p w v) (hvu : Spares h b p v u) : Spares h b p w u where
  host := hvu.host.trans hwv.host
  bridge := hvu.bridge.trans hwv.bridge
  service := by
    have hservice := hvu.service
    rw [hwv.bridge] at hservice
    exact hservice.trans hwv.service
  languages := hvu.languages.trans hwv.languages
  kept o hs ho := hvu.kept o (hwv.kept o hs ho) ho

theorem of_carry {call : Option Call} (m : Carry w call v) : Spares h b p w v := by
  cases m with
  | call | lease | agent | entry | saveFormData => exact ⟨rfl, rfl, rfl, rfl, fun _ hs _ => hs⟩
  | hold o _ => exact ⟨rfl, rfl, rfl, rfl, fun _ hs _ => List.mem_cons_of_mem _ hs⟩
  | letGo o _ =>
    have hsheds := sheds_releaseQuietly w .call o
    refine ⟨?_, ?_, ?_, ?_, fun _ hs _ => hsheds.kept_of_holder hs (by simp) (by simp)⟩ <;> rw [hsheds.same]

theorem of_moves {α : Type} {op : Op σ α} {react : Reaction σ} (hop : op.Moves Carry)
    (hreact : ∀ call u, Spares h b p u (react call u)) (w : World σ) :
    Spares h b p w (op.outcome react w).2 :=
  (hop w react).related refl trans (fun _ _ _ => of_carry) hreact

end Spares

/-! ## A bridge to a service -/

/-- A host in memory with the settings `s` is attached to a bridge whose context has a service with
the languages `l`, and the embedder has a share in bridge and host. -/
structure Wired (w : World σ) (h : HostRef) (b : BridgeRef) (p : ServiceRef) (s : Settings) (l : String) :
    Prop where
  attached : w.hosts h = .memory s (some b)
  host : (w.bridges b).host = h
  service : (w.contexts (w.bridges b).context).service = some p
  languages : (w.services p).get? acceptLanguagesKey = some l
  bridge_kept : ⟨.embedder, b.object⟩ ∈ w.shares
  host_kept : ⟨.embedder, h.object⟩ ∈ w.shares

namespace Wired

variable {s : Settings} {l : String}

theorem of_spares (hw : Wired w h b p s l) (hsame : Spares h b p w v) : Wired v h b p s l where
  attached := hsame.host.trans hw.attached
  host := by
    rw [hsame.bridge]
    exact hw.host
  service := by
    rw [hsame.bridge]
    exact hsame.service.trans hw.service
  languages := hsame.languages.trans hw.languages
  bridge_kept := hsame.kept _ hw.bridge_kept (.inl rfl)
  host_kept := hsame.kept _ hw.host_kept (.inr rfl)

theorem bridge_alive (hw : Wired w h b p s l) : w.isAlive b.object = true :=
  isAlive_iff.2 ⟨.embedder, hw.bridge_kept⟩

theorem host_alive (hw : Wired w h b p s l) : w.isAlive h.object = true :=
  isAlive_iff.2 ⟨.embedder, hw.host_kept⟩

theorem put (hw : Wired w h b p s l) (x : String) :
    Wired (w.changeService p (·.put acceptLanguagesKey x)) h b p s x where
  attached := hw.attached
  host := hw.host
  service := hw.service
  languages := by simp [changeService]
  bridge_kept := hw.bridge_kept
  host_kept := hw.host_kept

theorem stored (hw : Wired w h b p s l) (f : Settings → Settings) : Wired (w.stored h f) h b p (f s) l where
  attached := by rw [hosts_stored, hw.attached]; rfl
  host := hw.host
  service := hw.service
  languages := hw.languages
  bridge_kept := hw.bridge_kept
  host_kept := hw.host_kept

end Wired

end World

/-! ## What edits do -/

open World (Wired Spares)

section Edits

variable {h : HostRef} {b : BridgeRef} {p : ServiceRef} {w : World σ} {s : Settings} {l : String}
variable {react : Reaction σ}

theorem Bridge.wired_updateAcceptLanguages (hreact : ∀ call u, Spares h b p u (react call u))
    (hw : Wired w h b p s l) :
    Wired ((updateAcceptLanguages b).outcome react w).2 h b p s s.acceptLanguages := by
  have hstored : Wired (storing w h p) h b p s s.acceptLanguages := by
    have hlanguages : (w.hosts h).acceptLanguages = s.acceptLanguages := by rw [hw.attached]; rfl
    have hheld := (hw.of_spares (.of_carry (.hold w h.object (.inl hw.host_alive)))).of_spares
      (.of_carry (.hold _ p.object (.inr rfl)))
    rw [storing, hlanguages]
    refine Wired.put (l := l) ?_ s.acceptLanguages
    unfold World.consulted
    split
    · exact hheld.of_spares (.of_carry (.lease _ _))
    · exact hheld
  have hhost : w.isAlive (w.bridges b).host.object = true := by
    rw [hw.host]
    exact hw.host_alive
  have hcalled := hstored.of_spares (hreact (.stored p acceptLanguagesKey (w.hosts h).acceptLanguages) _)
  have hservice := hcalled.of_spares (.of_carry (.letGo _ p.object (by simp [Ref.object])))
  rw [outcome_updateAcceptLanguages react hhost hw.service, hw.host]
  exact hservice.of_spares (.of_carry (.letGo _ h.object (by simp [Ref.object])))

/-- An update carries languages only if it is for them. -/
theorem Bridge.wired_update (hreact : ∀ call u, Spares h b p u (react call u)) (channel : Channel)
    (hw : Wired w h b p s l) :
    Wired ((update channel b).outcome react w).2 h b p s
      (if channel = .acceptLanguages then s.acceptLanguages else l) := by
  split
  · next hlanguages =>
    subst hlanguages
    exact wired_updateAcceptLanguages hreact hw
  · next hother => exact hw.of_spares (.of_moves (moves_update_of_ne hother b) hreact w)

theorem Host.wired_update (hreact : ∀ call u, Spares h b p u (react call u)) (channel : Channel)
    (f : Settings → Settings) (hw : Wired w h b p s l) :
    Wired ((update h channel f).outcome react w).2 h b p (f s)
      (if channel = .acceptLanguages then (f s).acceptLanguages else l) := by
  have hattached : (w.hosts h).attached = some b := by rw [hw.attached]; rfl
  have hfound := ((hw.stored f).of_spares (.of_carry (.lease _ ⟨.hostAttached h, false⟩))).of_spares
    (.of_carry (.hold _ b.object (.inl hw.bridge_alive)))
  have hcarried := Bridge.wired_update hreact channel hfound
  rw [outcome_update react channel f hattached hw.bridge_alive, Op.outcome_bind]
  have hkept : ∀ {v : World σ} {o}, ⟨.embedder, o⟩ ∈ v.shares →
      ⟨.embedder, o⟩ ∈ (v.withdraw .call b.object).shares := fun hs => (List.mem_erase_of_ne (by simp)).2 hs
  rw [Op.outcome_release_bridge react (World.isAlive_iff.2 ⟨.embedder, hkept hcarried.bridge_kept⟩)]
  exact hcarried.of_spares ⟨rfl, rfl, rfl, rfl, fun _ hs _ => hkept hs⟩

def Edit.languages? : Edit → Option String
  | set (.acceptLanguages languages) => some languages
  | _ => none

theorem Edit.wired_perform (hreact : ∀ call u, Spares h b p u (react call u)) (edit : Edit)
    (hw : Wired w h b p s l) :
    Wired ((edit.perform h).outcome react w).2 h b p (edit.apply s) (edit.languages?.getD l) := by
  rw [outcome_perform, apply]
  split
  · have hupdated := Host.wired_update hreact edit.channel edit.store hw
    cases edit with
    | replace settings => exact hupdated
    | set change => cases change <;> exact hupdated
  · next hignored =>
    cases edit with
    | replace settings => exact hw
    | set change =>
      cases change with
      | acceptLanguages languages => exact absurd rfl hignored
      | _ => exact hw

/-- The languages that the setter of languages was called with last, or else `l`. -/
def Edit.lastLanguages (edits : List Edit) (l : String) : String :=
  edits.foldl (fun l edit => edit.languages?.getD l) l

theorem Edit.wired_performAll (hreact : ∀ call u, Spares h b p u (react call u)) (edits : List Edit)
    (hw : Wired w h b p s l) :
    Wired ((performAll h edits).outcome react w).2 h b p (applyAll edits s) (lastLanguages edits l) := by
  induction edits generalizing w s l with
  | nil => exact hw
  | cons edit rest ih => exact ih (wired_perform hreact edit hw)

/-- Whichever edits are made, the service has the languages that the setter of languages was called with last, and
those of the host may be others by then. -/
theorem languages_follow_their_setter (hreact : ∀ call u, Spares h b p u (react call u))
    (hw : Wired w h b p s s.acceptLanguages) (edits : List Edit) :
    let v := ((Edit.performAll h edits).outcome react w).2
    (v.services p).get? acceptLanguagesKey = some (Edit.lastLanguages edits s.acceptLanguages) ∧
    (v.hosts h).acceptLanguages = (Edit.applyAll edits s).acceptLanguages ∧
    ((v.services p).get? acceptLanguagesKey = some (v.hosts h).acceptLanguages ↔
      Edit.lastLanguages edits s.acceptLanguages = (Edit.applyAll edits s).acceptLanguages) := by
  intro v
  have hv := Edit.wired_performAll hreact edits hw
  have hhost : (v.hosts h).acceptLanguages = (Edit.applyAll edits s).acceptLanguages := by
    rw [hv.attached]
    rfl
  refine ⟨hv.languages, hhost, ?_⟩
  rw [hv.languages, hhost, Option.some_inj]

end Edits

/-- When all settings are replaced, the service keeps the languages that it has. Once they are set
by themselves it has them too. -/
theorem replaced_languages_stay_behind : ∃ w : World Diary, w.Reached Diary.note [] ∧
    Wired w ⟨3⟩ ⟨4⟩ ⟨0⟩ {} "en-US,en" ∧
    (let v := ((Edit.performAll ⟨3⟩ [.replace { acceptLanguages := "fr" }]).outcome (fun _ u => u) w).2
     (v.services ⟨0⟩).get? acceptLanguagesKey = some "en-US,en" ∧ (v.hosts ⟨3⟩).acceptLanguages = "fr") ∧
    (let edits := [.replace { acceptLanguages := "fr" }, .set (.acceptLanguages "de")]
     let v := ((Edit.performAll ⟨3⟩ edits).outcome (fun _ u => u) w).2
     (v.services ⟨0⟩).get? acceptLanguagesKey = some (v.hosts ⟨3⟩).acceptLanguages) := by
  let deeds : List Deed :=
    [.makeService, .makeContext {} (some ⟨0⟩), .makeSession { id := ⟨7⟩ }, .makeHost {},
      .makeBridge ⟨1⟩ ⟨2⟩ ⟨3⟩, .attach ⟨3⟩ ⟨4⟩, .act ⟨4⟩ .updateAcceptLanguages]
  let w : World Diary := World.after Diary.note deeds { embedder := [] }
  have hw : w.Reached Diary.note [] := World.evolves_after Diary.note deeds (.still _)
  have hwired : Wired w ⟨3⟩ ⟨4⟩ ⟨0⟩ {} "en-US,en" :=
    ⟨by rfl, by rfl, by rfl, by decide +kernel, by decide +kernel, by decide +kernel⟩
  have hspares : ∀ (call : Call) (u : World Diary), Spares ⟨3⟩ ⟨4⟩ ⟨0⟩ u ((fun _ u => u) call u) :=
    fun _ u => .refl u
  refine ⟨w, hw, hwired, ?_, ?_⟩
  · obtain ⟨hservice, hhost, _⟩ :=
      languages_follow_their_setter hspares hwired [.replace { acceptLanguages := "fr" }]
    exact ⟨hservice.trans (by decide +kernel), hhost.trans (by decide +kernel)⟩
  · exact (languages_follow_their_setter hspares hwired _).2.2.2 (by decide +kernel)

end SettingsRelay
