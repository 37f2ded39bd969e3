import SettingsRelay.Proofs.Edit
import SettingsRelay.Proofs.Ending

/-!
# The bridge that is attached last

A host in memory has room for one bridge and does not keep it alive. It is told of the end of the bridges that
were made for it and not of those that were attached to it, and a bridge may be attached to any host. What it
finds through its reference is nevertheless the bridge that was attached last as long as that is alive, and
nothing after that; and when that bridge was made for the host, not even the reference is left.

So an edit that is not refused is stored and then carried on by the bridge that was attached last, if it is
alive, and by no other.
-/

namespace SettingsRelay

variable {σ : Type}

open World (Move Registered Follows Continues)

namespace World

variable {w v : World σ}

/-- The bridge that was attached last to a host, whether or not it is alive. -/
def attachedLast? (w : World σ) (h : HostRef) : Option BridgeRef := w.attachments.lookup h

theorem attachedLast?_attach (w : World σ) (h k : HostRef) (b : BridgeRef) :
    (w.attach h b).attachedLast? k = if k = h then some b else w.attachedLast? k := by
  rw [attachedLast?, attach, List.lookup_cons]
  by_cases hk : k = h
  · simp [hk]
  · have hne : (k == h) = false := by simp [hk]
    rw [hne, if_neg hk]
    rfl

theorem attachedLast?_congr (hattachments : v.attachments = w.attachments) (h : HostRef) :
    v.attachedLast? h = w.attachedLast? h := by
  rw [attachedLast?, attachedLast?, hattachments]

theorem mem_of_attachedLast? {h : HostRef} {b : BridgeRef} (hlast : w.attachedLast? h = some b) :
    (h, b) ∈ w.attachments := by
  obtain ⟨before, after, heq, _⟩ := List.lookup_eq_some_iff.1 hlast
  rw [heq]
  simp

/-! ## What moves do to slots -/

theorem hosts_changeHost (w : World σ) (h k : HostRef) (f : Host → Host) :
    (w.changeHost h f).hosts k = if k = h then f (w.hosts k) else w.hosts k := by
  rw [changeHost]
  dsimp only
  by_cases hk : k = h
  · rw [hk, replaceAt_self, if_pos rfl]
  · rw [replaceAt_of_ne hk, if_neg hk]

/-- Nothing was attached, and no slot was cleared. Only a host that is made may be different. -/
structure SameSlots (w v : World σ) : Prop where
  attachments : v.attachments = w.attachments
  host : ∀ h : HostRef, h.index < w.next →
    (v.hosts h).attached = (w.hosts h).attached ∧ (v.hosts h).isInMemory = (w.hosts h).isInMemory
  attached : ∀ (h : HostRef) b, (v.hosts h).attached = some b → (w.hosts h).attached = some b

namespace SameSlots

theorem of_hosts (hattachments : v.attachments = w.attachments) (hhosts : v.hosts = w.hosts) :
    SameSlots w v where
  attachments := hattachments
  host h _ := by rw [hhosts]; exact ⟨rfl, rfl⟩
  attached h b hb := by rwa [hhosts] at hb

theorem of_sheds {holder : Holder} {o : Object} (h : Sheds holder o w v) : SameSlots w v :=
  .of_hosts (by rw [h.same]) (by rw [h.same])

theorem of_changeHost {h : HostRef} {f : Host → Host}
    (hattached : (f (w.hosts h)).attached = (w.hosts h).attached)
    (hmemory : (f (w.hosts h)).isInMemory = (w.hosts h).isInMemory) : SameSlots w (w.changeHost h f) := by
  have hboth : ∀ k, ((w.changeHost h f).hosts k).attached = (w.hosts k).attached ∧
      ((w.changeHost h f).hosts k).isInMemory = (w.hosts k).isInMemory := by
    intro k
    rw [hosts_changeHost]
    split
    · next hk => exact hk ▸ ⟨hattached, hmemory⟩
    · exact ⟨rfl, rfl⟩
  exact ⟨rfl, fun k _ => hboth k, fun k b hb => (hboth k).1 ▸ hb⟩

theorem of_makingHost {host : Host} (hhost : host.attached = none) :
    SameSlots w (w.making fun (r : HostRef) w => { w with hosts := replaceAt w.hosts r host }) where
  attachments := rfl
  host h hlt := by
    have hne : h ≠ ⟨w.next⟩ := fun heq => Nat.lt_irrefl w.next (by rwa [heq] at hlt)
    change (replaceAt w.hosts ⟨w.next⟩ host h).attached = _ ∧ (replaceAt w.hosts ⟨w.next⟩ host h).isInMemory = _
    rw [replaceAt_of_ne hne]
    exact ⟨rfl, rfl⟩
  attached h b hb := by
    change (replaceAt w.hosts ⟨w.next⟩ host h).attached = some b at hb
    by_cases heq : h = ⟨w.next⟩
    · rw [heq, replaceAt_self, hhost] at hb
      cases hb
    · rwa [replaceAt_of_ne heq] at hb

end SameSlots

theorem attachments_parted (w : World σ) (holder : Holder) (b : BridgeRef) :
    (w.parted holder b).attachments = w.attachments := by
  rw [parted_eq, bury_eq]

/-- What a move does to slots unless it is the end of a bridge. -/
theorem Move.slot_cases {call : Option Call} (m : Move w call v) :
    SameSlots w v ∨
    (∃ h b, w.isAlive (Ref.object h) = true ∧ w.isAlive (Ref.object b) = true ∧ v = w.attach h b) ∨
    (∃ holder b, ⟨holder, Ref.object b⟩ ∈ w.shares ∧
      (w.withdraw holder b.object).isAlive b.object = false ∧ v = w.parted holder b) := by
  cases m with
  | carry h =>
    left
    cases h with
    | call | lease | hold | agent | entry | saveFormData => exact .of_hosts rfl rfl
    | letGo o _ => exact .of_sheds (sheds_releaseQuietly w .call o)
  | store | view | suggestions | delegate | remodel => exact .inl (.of_hosts rfl rfl)
  | set | replace =>
    exact .inl (.of_changeHost (Host.attached_withSettings _ _) (Host.isInMemory_withSettings _ _))
  | attach h b hhost hbridge => exact .inr (.inl ⟨h, b, hhost, hbridge, rfl⟩)
  | customize h s o hcustom => exact .inl (.of_changeHost (Host.attached_of_custom hcustom).symm hcustom.symm)
  | engage s client _ => cases client <;> exact .inl (.of_hosts rfl rfl)
  | dismiss s c => exact .inl (.of_sheds (sheds_releaseClient w _ c))
  | makeContext _ service _ | makeClient service _ => cases service <;> exact .inl (.of_hosts rfl rfl)
  | makeSession session _ => cases hc : session.client <;> exact .inl (.of_hosts rfl rfl)
  | makeHost | makeCustomHost => exact .inl (.of_makingHost rfl)
  | makeService | makeView | makeDelegate | makeBridge | keep | withdraw => exact .inl (.of_hosts rfl rfl)
  | drop o _ => exact .inl (.of_sheds (sheds_releaseQuietly w .embedder o))
  | bury holder b hheld hdead => exact .inr (.inr ⟨holder, b, hheld, hdead, rfl⟩)
  | part b c => exact .inl (.of_sheds (sheds_releaseContext w _ c))

theorem host_detach {b : BridgeRef} (hdead : w.isAlive b.object = false) (h k : HostRef) :
    ((w.detach h b).hosts k).isInMemory = (w.hosts k).isInMemory ∧
    ((w.detach h b).hosts k).attached =
      if k = h then w.living? (w.hosts k).attached else (w.hosts k).attached := by
  have hstays : w.living? (w.hosts h).attached = (w.hosts h).attached → (w.hosts k).attached =
      if k = h then w.living? (w.hosts k).attached else (w.hosts k).attached := by
    intro hliving
    split
    · next hk => rw [hk, hliving]
    · rfl
  unfold detach
  split
  · next a hslot =>
    split
    · next hother =>
      simp only [Bool.and_eq_true] at hother
      exact ⟨rfl, hstays (by rw [hslot, living?_of_alive hother.1])⟩
    · next hgone =>
      -- the bridge in the slot is dead: it is the one that ends, or it had ended before
      have hgone : w.isAlive a.object = false := by
        cases halive : w.isAlive a.object with
        | false => rfl
        | true =>
          have hab : a = b := by simpa [halive] using hgone
          rw [← halive, hab, hdead]
      rw [hosts_changeHost]
      split
      · next hk =>
        rw [hk, hslot, living?_of_dead hgone, Host.isInMemory_withAttached, Host.attached_withAttached, ite_self]
        exact ⟨rfl, rfl⟩
      · exact ⟨rfl, rfl⟩
  · next hslot => exact ⟨rfl, hstays (by rw [hslot, living?_none])⟩

/-- A host that is told of an end keeps the reference in its slot only if the bridge there is alive. -/
theorem host_parted {holder : Holder} {b : BridgeRef}
    (hdead : (w.withdraw holder b.object).isAlive b.object = false) (h : HostRef) :
    ((w.parted holder b).hosts h).isInMemory = (w.hosts h).isInMemory ∧
    ((w.parted holder b).hosts h).attached = if w.told? holder b = some h then
      (w.withdraw holder b.object).living? (w.hosts h).attached else (w.hosts h).attached := by
  unfold parted
  split
  · next host htold =>
    let kept := (w.bury holder b).acquire .call host.object
    have hhosts : kept.hosts = w.hosts := w.hosts_bury holder b
    have hliving : kept.living? (w.hosts h).attached =
        (w.withdraw holder b.object).living? (w.hosts h).attached :=
      living?_congr fun a _ => isAlive_keptHost htold a.object
    simp only [htold, Option.some_inj, eq_comm (a := host)]
    split
    · have hdetach := host_detach (w := kept) ((isAlive_keptHost htold b.object).trans hdead) host h
      rw [hhosts, hliving] at hdetach
      exact hdetach
    · next hcustom =>
      refine ⟨congrArg Host.isInMemory (congrFun hhosts h), ?_⟩
      refine (congrArg Host.attached (congrFun hhosts h)).trans ?_
      split
      · next hhost =>
        rw [hhost, Host.attached_of_custom (eq_false_of_ne_true hcustom), living?_none]
      · rfl
  · next htold =>
    rw [htold, hosts_bury]
    exact ⟨rfl, rfl⟩

theorem Move.isInMemory_of_lt {call : Option Call} (m : Move w call v) {h : HostRef} (hlt : h.index < w.next) :
    (v.hosts h).isInMemory = (w.hosts h).isInMemory := by
  rcases m.slot_cases with hslots | ⟨k, b, _, _, rfl⟩ | ⟨holder, b, _, hdead, rfl⟩
  · exact (hslots.host h hlt).2
  · change ((w.changeHost k _).hosts h).isInMemory = _
    rw [hosts_changeHost]
    split
    · exact Host.isInMemory_withAttached _ _
    · rfl
  · exact (host_parted hdead h).1

/-! ## The invariant -/

/-- A slot has the bridge that was attached last, and has it for certain if that is alive. Nothing is
left in the slot of a living host once a bridge of its own that was attached last has ended. -/
structure Slotted (w : World σ) : Prop where
  registered : Registered w
  host_lt : ∀ h : HostRef, w.isAlive h.object = true → h.index < w.next
  attached_lt : ∀ e ∈ w.attachments, e.1.index < w.next
  attached_made : ∀ e ∈ w.attachments, e.2 ∈ w.made
  recent : ∀ h b, (w.hosts h).attached = some b → w.attachedLast? h = some b
  kept : ∀ h b, (w.hosts h).isInMemory = true → w.attachedLast? h = some b →
    w.isAlive b.object = true → (w.hosts h).attached = some b
  cleared : ∀ h b, w.isAlive h.object = true → w.attachedLast? h = some b → (w.bridges b).host = h →
    w.isAlive b.object = false → (w.hosts h).attached = none

namespace Slotted

variable (hw : Slotted w)

include hw

theorem host_lt_of_last {h : HostRef} {b : BridgeRef} (hlast : w.attachedLast? h = some b) :
    h.index < w.next := hw.attached_lt _ (mem_of_attachedLast? hlast)

theorem made_of_last {h : HostRef} {b : BridgeRef} (hlast : w.attachedLast? h = some b) : b ∈ w.made :=
  hw.attached_made _ (mem_of_attachedLast? hlast)

theorem attached_lt_of_move {call : Option Call} (m : Move w call v) (hattachments : v.attachments = w.attachments) :
    ∀ e ∈ v.attachments, e.1.index < v.next := by
  rw [hattachments]
  exact fun e he => (hw.attached_lt e he).trans_le m.next_le

theorem attached_made_of_move {call : Option Call} (m : Move w call v)
    (hattachments : v.attachments = w.attachments) : ∀ e ∈ v.attachments, e.2 ∈ v.made := by
  have hfollows : Follows v w := .of_move hw.registered m
  rw [hattachments]
  exact fun e he => hfollows.made.subset (hw.attached_made e he)

theorem host_lt_of_move {call : Option Call} (m : Move w call v) (h : HostRef)
    (halive : v.isAlive h.object = true) : h.index < v.next := by
  rcases m.isAlive_of_alive (by simp [Ref.object]) halive with hbefore | ⟨hindex, hlt⟩
  · exact (hw.host_lt h hbefore).trans_le m.next_le
  · exact (show h.index = w.next from hindex) ▸ hlt

theorem of_same {call : Option Call} (m : Move w call v) (hslots : SameSlots w v) (hlives : Continues w v) :
    Slotted v := by
  have hfollows : Follows v w := .of_move hw.registered m
  have hsame := attachedLast?_congr hslots.attachments
  refine ⟨hw.registered.of_move m, hw.host_lt_of_move m, hw.attached_lt_of_move m hslots.attachments,
    hw.attached_made_of_move m hslots.attachments, ?_, ?_, ?_⟩
  · intro h b hslot
    rw [hsame]
    exact hw.recent h b (hslots.attached h b hslot)
  · intro h b hmemory hlast halive
    rw [hsame] at hlast
    obtain ⟨hattached, hkind⟩ := hslots.host h (hw.host_lt_of_last hlast)
    rw [hlives.alive b (hw.made_of_last hlast)] at halive
    rw [hattached]
    exact hw.kept h b (hkind.symm.trans hmemory) hlast halive
  · intro h b hhost hlast hown hdead
    rw [hsame] at hlast
    have hlt := hw.host_lt_of_last hlast
    have hmade := hw.made_of_last hlast
    rw [hlives.alive b hmade] at hdead
    rw [hfollows.bridges b hmade] at hown
    have hhost : w.isAlive h.object = true := by
      rcases m.isAlive_of_alive (by simp [Ref.object]) hhost with hbefore | ⟨hindex, _⟩
      · exact hbefore
      · exact absurd hindex hlt.ne
    rw [(hslots.host h hlt).1]
    exact hw.cleared h b hhost hlast hown hdead

theorem attach {h : HostRef} {b : BridgeRef} (hhost : w.isAlive h.object = true)
    (hbridge : w.isAlive b.object = true) : Slotted (w.attach h b) := by
  have hslot : ∀ k, ((w.attach h b).hosts k).isInMemory = (w.hosts k).isInMemory ∧
      ((w.attach h b).hosts k).attached =
        if k = h then if (w.hosts k).isInMemory then some b else none else (w.hosts k).attached := by
    intro k
    change ((w.changeHost h _).hosts k).isInMemory = _ ∧ ((w.changeHost h _).hosts k).attached = _
    rw [hosts_changeHost]
    split
    · exact ⟨Host.isInMemory_withAttached _ _, Host.attached_withAttached _ _⟩
    · exact ⟨rfl, rfl⟩
  refine ⟨hw.registered.of_move (.attach w h b hhost hbridge), hw.host_lt, ?_, ?_, ?_, ?_, ?_⟩
  · exact List.forall_mem_cons.2 ⟨hw.host_lt h hhost, hw.attached_lt⟩
  · exact List.forall_mem_cons.2 ⟨hw.registered.made_of_alive b hbridge, hw.attached_made⟩
  · intro k a ha
    rw [(hslot k).2] at ha
    rw [attachedLast?_attach]
    split at ha
    · next hk =>
      rw [if_pos hk, ← ha]
      split at ha
      · next hmemory => rw [if_pos hmemory]
      · cases ha
    · next hk => rw [if_neg hk, hw.recent k a ha]
  · intro k a hmemory hlast halive
    rw [(hslot k).1] at hmemory
    rw [attachedLast?_attach] at hlast
    rw [(hslot k).2, if_pos hmemory]
    split at hlast
    · next hk => rw [if_pos hk, hlast]
    · next hk =>
      rw [if_neg hk]
      exact hw.kept k a hmemory hlast halive
  · intro k a hk hlast hown hdead
    rw [attachedLast?_attach] at hlast
    rw [(hslot k).2]
    split at hlast
    · cases hlast
      exact absurd (hbridge.symm.trans hdead) (by simp)
    · next hne =>
      rw [if_neg hne]
      exact hw.cleared k a hk hlast hown hdead

/-- Of the hosts only the one that the bridge was made for is told, and it lets go of no living
bridge. -/
theorem parted {holder : Holder} {b : BridgeRef} (hheld : ⟨holder, b.object⟩ ∈ w.shares)
    (hdead : (w.withdraw holder b.object).isAlive b.object = false) : Slotted (w.parted holder b) := by
  have m : Move w (w.farewell? holder b) (w.parted holder b) := .bury w holder b hheld hdead
  have hfollows : Follows (w.parted holder b) w := .of_move hw.registered m
  have hattachments := w.attachments_parted holder b
  have hsame := attachedLast?_congr hattachments
  refine ⟨hw.registered.of_move m, hw.host_lt_of_move m, hw.attached_lt_of_move m hattachments,
    hw.attached_made_of_move m hattachments, ?_, ?_, ?_⟩
  · intro h a ha
    rw [hsame]
    rw [(host_parted hdead h).2] at ha
    split at ha
    · exact hw.recent h a (Option.filter_eq_some_iff.1 ha).1
    · exact hw.recent h a ha
  · intro h a hmemory hlast halive
    rw [hsame] at hlast
    rw [isAlive_parted] at halive
    rw [(host_parted hdead h).1] at hmemory
    rw [(host_parted hdead h).2, hw.kept h a hmemory hlast (isAlive_of_withdraw halive),
      living?_of_alive halive, ite_self]
  · intro h a hhost hlast hown hgone
    rw [hsame] at hlast
    rw [isAlive_parted] at hgone hhost
    rw [hfollows.bridges a (hw.made_of_last hlast)] at hown
    rw [(host_parted hdead h).2]
    by_cases hab : a = b
    · have htold : w.told? holder b = some h := by
        rw [told?, ← hab, hown, hab]
        exact if_pos ((isAlive_bury w holder b h.object).trans hhost)
      rw [if_pos htold]
      cases hslot : (w.hosts h).attached with
      | none => rfl
      | some c =>
        have hc : a = c := Option.some_inj.1 (hlast.symm.trans (hw.recent h c hslot))
        exact living?_of_dead (hc ▸ hgone)
    · have hbefore : w.isAlive a.object = false := by
        rw [← hgone]
        exact (isAlive_withdraw_of_ne fun heq => hab (Ref.object_injective heq).symm).symm
      rw [hw.cleared h a (isAlive_of_withdraw hhost) hlast hown hbefore, living?_none, ite_self]

theorem of_move {call : Option Call} (m : Move w call v) : Slotted v := by
  rcases m.slot_cases with hslots | ⟨h, b, hhost, hbridge, rfl⟩ | ⟨holder, b, hheld, hdead, rfl⟩
  · rcases m.ending_cases hw.registered with ⟨hlives, _⟩ | ⟨holder, b, hheld, hdead, _, rfl⟩
    · exact hw.of_same m hslots hlives
    · exact hw.parted hheld hdead
  · exact hw.attach hhost hbridge
  · exact hw.parted hheld hdead

end Slotted

theorem Slotted.initial (start : σ) : Slotted ({ embedder := start } : World σ) where
  registered := .initial start
  host_lt _ h := by simp [isAlive] at h
  attached_lt _ h := by simp at h
  attached_made _ h := by simp at h
  recent _ _ h := by cases h
  kept _ _ _ h := by simp [attachedLast?] at h
  cleared _ _ h := by simp [isAlive] at h

theorem slotted_bare {w : World σ} : Slotted w.bare ↔ Slotted w :=
  ⟨fun h => ⟨registered_bare.1 h.registered, h.host_lt, h.attached_lt, h.attached_made, h.recent, h.kept, h.cleared⟩,
    fun h => ⟨registered_bare.2 h.registered, h.host_lt, h.attached_lt, h.attached_made, h.recent, h.kept, h.cleared⟩⟩

theorem Slotted.of_seen {w : World Diary} (h : w.Reached Diary.note []) : ∀ v ∈ w.seen, Slotted v :=
  forall_seen (.initial ()) (fun m ha => slotted_bare.2 ((slotted_bare.1 ha).of_move m)) h

/-! ## What a host finds in its slot -/

namespace Slotted

variable (hw : Slotted w) {h : HostRef} (hmemory : (w.hosts h).isInMemory = true)

include hw hmemory

/-- A host that looks at its slot finds the bridge that was attached last, if it is alive. -/
theorem living?_slot : w.living? (w.hosts h).attached = w.living? (w.attachedLast? h) := by
  cases hslot : (w.hosts h).attached with
  | some b => rw [hw.recent h b hslot]
  | none =>
    cases hlast : w.attachedLast? h with
    | none => rfl
    | some b =>
      have hdead : w.isAlive b.object = false := by
        by_contra halive
        have hkept := hw.kept h b hmemory hlast (eq_true_of_ne_false halive)
        rw [hslot] at hkept
        cases hkept
      rw [living?_of_dead hdead, living?_none]

theorem outcome_hasBridge (react : Reaction σ) :
    ((Host.hasBridge h).outcome react w).1 = (w.living? (w.attachedLast? h)).isSome := by
  rw [Host.hasBridge, Op.outcome_readCell, ← hw.living?_slot hmemory, living?, Option.isSome_filter]
  rfl

/-- An edit that is taken is carried on by the bridge that was attached last, if it is alive. -/
theorem outcome_perform (edit : Edit) (react : Reaction σ) :
    (edit.perform h).outcome react w =
      if edit.isTaken then
        match w.living? (w.attachedLast? h) with
        | some b => (do Bridge.update edit.channel b; Op.release .call b.object : Op σ Unit).outcome react
            (((w.stored h edit.store).leased ⟨.hostAttached h, false⟩).acquire .call b.object)
        | none => ((), (w.stored h edit.store).leased ⟨.hostAttached h, false⟩)
      else ((), w) := by
  rw [Edit.outcome_perform]
  refine if_congr Iff.rfl ?_ rfl
  rw [← hw.living?_slot hmemory]
  cases hslot : w.living? (w.hosts h).attached with
  | none => rw [Host.outcome_update_alone react _ _ hslot]
  | some b =>
    obtain ⟨hattached, halive⟩ := Option.filter_eq_some_iff.1 hslot
    rw [Host.outcome_update react _ _ hattached halive]

end Slotted

end World

/-- In every world that an application sees, a host in memory has the bridge that was attached last for as long as
that is alive, and has its edits carried by that bridge and no other. -/
theorem slot_has_bridge_attached_last {w : World Diary} (hw : w.Reached Diary.note []) :
    ∀ v ∈ w.seen, ∀ h : HostRef, (v.hosts h).isInMemory = true →
      (∀ b react, let u := ((Host.attach h b).outcome react v).2
        (u.hosts h).attached = some b ∧
        ∀ k, u.attachedLast? k = if k = h then some b else v.attachedLast? k) ∧
      (∀ react, ((Host.hasBridge h).outcome react v).1 = (v.living? (v.attachedLast? h)).isSome) ∧
      (∀ b, (v.hosts h).attached = some b → v.attachedLast? h = some b) ∧
      (∀ b, v.attachedLast? h = some b → v.isAlive b.object = true → (v.hosts h).attached = some b) ∧
      (∀ holder a b, ⟨holder, Ref.object a⟩ ∈ v.shares →
        (v.withdraw holder a.object).isAlive a.object = false → a ≠ b →
        v.attachedLast? h = some b → v.isAlive b.object = true →
        ((v.parted holder a).hosts h).attached = some b) ∧
      (v.isAlive h.object = true → ∀ b, v.attachedLast? h = some b → (v.bridges b).host = h →
        v.isAlive b.object = false → (v.hosts h).attached = none) ∧
      (v.isAlive h.object = true → ∀ (edit : Edit) react, let u := v.acquire .call h.object
        (edit.perform h).outcome react u =
          if edit.isTaken then
            match v.living? (v.attachedLast? h) with
            | some b =>
              (do Bridge.update edit.channel b; Op.release .call b.object : Op Unit Unit).outcome react
                (((u.stored h edit.store).leased ⟨.hostAttached h, false⟩).acquire .call b.object)
            | none => ((), (u.stored h edit.store).leased ⟨.hostAttached h, false⟩)
          else ((), u)) := by
  intro v hv h hmemory
  have hslots : World.Slotted v := World.Slotted.of_seen hw v hv
  refine ⟨fun b react => ?_, hslots.outcome_hasBridge hmemory, hslots.recent h,
    fun b => hslots.kept h b hmemory, ?_, fun hhost b => hslots.cleared h b hhost, ?_⟩
  · rw [Host.attach, Op.outcome_writeCell react v _ _ fun _ => rfl]
    refine ⟨?_, fun k => World.attachedLast?_attach v h k b⟩
    change ((v.changeHost h _).hosts h).attached = some b
    rw [World.hosts_changeHost, if_pos rfl, Host.attached_withAttached, if_pos hmemory]
  · intro holder a b hheld hdead hab hlast halive
    have hafter := hslots.parted hheld hdead
    refine hafter.kept h b ?_ ?_ ?_
    · rw [(World.host_parted hdead h).1, hmemory]
    · rw [World.attachedLast?, World.attachments_parted]
      exact hlast
    · rw [World.isAlive_parted, World.isAlive_withdraw_of_ne fun heq => hab (Ref.object_injective heq), halive]
  · intro hhost edit react u
    have hkept : World.Slotted u := hslots.of_move (.carry (.hold v h.object (.inl hhost)))
    have hliving : u.living? (u.attachedLast? h) = v.living? (v.attachedLast? h) :=
      World.living?_congr fun b _ => World.isAlive_acquire_of_ne (by simp [Ref.object])
    rw [hkept.outcome_perform hmemory edit react, hliving]

/-- A replaced bridge ends while it is still attached to a host that it was not made for. The host that it was made
for keeps the newer bridge until that one ends as well. -/
theorem replaced_bridge_ends : ∃ v w : World Diary,
    v.Reached Diary.note [] ∧ World.Evolves Diary.note v w ∧
    ((Host.hasBridge ⟨2⟩).outcome (fun _ u => u) v.bare).1 = true ∧
    ((Host.hasBridge ⟨3⟩).outcome (fun _ u => u) v.bare).1 = false ∧
    (v.bare.hosts ⟨2⟩).attached = some ⟨5⟩ ∧
    (let edit := Edit.set (.userAgent (some "x"))
     let u := v.bare.acquire .call (⟨2⟩ : HostRef).object
     (((edit.perform ⟨2⟩).outcome (fun _ u => u) u).2.sessions ⟨1⟩).userAgent = some "x") ∧
    (w.bare.hosts ⟨2⟩).attached = none := by
  let deeds : List Deed :=
    [.makeContext {} none, .makeSession { id := ⟨7⟩ }, .makeHost {}, .makeHost {},
      .makeBridge ⟨0⟩ ⟨1⟩ ⟨2⟩, .attach ⟨3⟩ ⟨4⟩, .attach ⟨2⟩ ⟨4⟩, .makeBridge ⟨0⟩ ⟨1⟩ ⟨2⟩,
      .attach ⟨2⟩ ⟨5⟩, .drop ⟨.bridge, 4⟩]
  let v : World Diary := World.after Diary.note deeds { embedder := [] }
  let w : World Diary := World.after Diary.note [.drop ⟨.bridge, 5⟩] v
  have hv : v.Reached Diary.note [] := World.evolves_after Diary.note deeds (.still _)
  have hvw : World.Evolves Diary.note v w := World.evolves_after Diary.note _ (.still _)
  have hw : w.Reached Diary.note [] := World.evolves_after Diary.note _ hv
  obtain ⟨_, hbridge, _, hkept, _, _, hedit⟩ :=
    slot_has_bridge_attached_last hv v.bare List.mem_cons_self ⟨2⟩ (by decide +kernel)
  obtain ⟨_, hother, _⟩ := slot_has_bridge_attached_last hv v.bare List.mem_cons_self ⟨3⟩ (by decide +kernel)
  obtain ⟨_, _, _, _, _, hcleared, _⟩ :=
    slot_has_bridge_attached_last hw w.bare List.mem_cons_self ⟨2⟩ (by decide +kernel)
  have hliving : v.bare.living? (v.bare.attachedLast? ⟨2⟩) = some ⟨5⟩ := by decide +kernel
  refine ⟨v, w, hv, hvw, ?_, ?_, hkept ⟨5⟩ (by decide +kernel) (by decide +kernel), ?_,
    hcleared (by decide +kernel) ⟨5⟩ (by decide +kernel) (by decide +kernel) (by decide +kernel)⟩
  · rw [hbridge, hliving]
    rfl
  · rw [hother]
    decide +kernel
  · dsimp only
    rw [hedit (by decide +kernel), hliving]
    decide +kernel

end SettingsRelay
