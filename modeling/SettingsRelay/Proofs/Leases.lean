import SettingsRelay.Proofs.Application

/-!
# Leases

A cell is under lease only while it is read or written, and neither of the two makes a call. So whoever is
called finds every cell as it was before the operation began: a host that is told of the end of a bridge in the
middle of another host's change, or a setter that is used again while its first change is being carried. All
leases that are taken are given back, and one that cannot be had is in the way of one that somebody outside had
taken before.
-/

namespace SettingsRelay

variable {σ : Type}

open World (Move)

namespace World

variable {w v u : World σ} {holder : Holder} {o : Object} {call : Option Call}

/-- Whoever leads from one world to the other gives back all leases that they take, and asks in vain only for
those that are in conflict with leases from before. -/
structure Returns (w v : World σ) : Prop where
  leases : v.leases = w.leases
  conflicts : ∀ l ∈ v.conflicts, l ∈ w.conflicts ∨ ∃ m ∈ w.leases, l.conflictsWith m = true

namespace Returns

theorem of_eq (hleases : v.leases = w.leases) (hconflicts : v.conflicts = w.conflicts) : Returns w v where
  leases := hleases
  conflicts _ hl := .inl (hconflicts ▸ hl)

theorem refl (w : World σ) : Returns w w := of_eq rfl rfl

theorem trans (hwv : Returns w v) (hvu : Returns v u) : Returns w u where
  leases := hvu.leases.trans hwv.leases
  conflicts l hl := by
    rcases hvu.conflicts l hl with hl | hheld
    · exact hwv.conflicts l hl
    · rw [hwv.leases] at hheld
      exact .inr hheld

theorem of_sheds (h : Sheds holder o w v) : Returns w v := of_eq (by rw [h.same]) (by rw [h.same])

theorem leased (w : World σ) (l : Lease) : Returns w (w.leased l) where
  leases := rfl
  conflicts k hk := by
    rw [World.leased] at hk
    dsimp only at hk
    split at hk
    · exact .inl hk
    · next hfree =>
      rcases List.mem_cons.1 hk with rfl | hk
      · right
        simpa [World.isFree] using hfree
      · exact .inl hk

/-- At the end of a bridge two cells are written one after the other, the registry and what is attached to a
host in memory. The call of a host that is not in memory comes after the first. -/
theorem parted (w : World σ) (holder : Holder) (b : BridgeRef) : Returns w (w.parted holder b) := by
  have hunregistered : ∀ v : World σ, ∀ c id, Returns v (v.unregister c id) := fun v c id => by
    rw [unregister_eq]
    exact of_eq rfl rfl
  have hdetached : ∀ v : World σ, ∀ h, Returns v (v.detach h b) := fun v h => by
    unfold detach
    split
    · split <;> exact of_eq rfl rfl
    · exact refl v
  have hstruck : Returns w (w.strike holder b) :=
    ((of_eq rfl rfl : Returns w (w.withdraw holder b.object)).trans (hunregistered _ _ _)).trans (leased _ _)
  have hburied : Returns w (w.bury holder b) := hstruck.trans (of_eq rfl rfl)
  unfold World.parted
  split
  · next host _ =>
    have hkept : Returns w ((w.bury holder b).acquire .call host.object) := hburied.trans (of_eq rfl rfl)
    dsimp only
    split
    · exact (hkept.trans (hdetached _ _)).trans (leased _ _)
    · exact hkept
  · exact hburied

theorem of_move (m : Move w call v) : Returns w v := by
  cases m with
  | carry h =>
    cases h with
    | lease l => exact leased w l
    | letGo o _ => exact of_sheds (sheds_releaseQuietly w .call o)
    | call | hold | agent | entry | saveFormData => exact of_eq rfl rfl
  | engage s client _ => cases client <;> exact of_eq rfl rfl
  | dismiss s c => exact of_sheds (sheds_releaseClient w _ c)
  | makeContext _ service _ | makeClient service _ => cases service <;> exact of_eq rfl rfl
  | makeSession session _ => cases hc : session.client <;> exact of_eq rfl rfl
  | makeBridge c s host _ _ =>
    have hentered : Returns w ((w.making fun (r : BridgeRef) w =>
        { w with
          bridges := replaceAt w.bridges r ⟨c, (w.sessions s).id, s, host⟩
          made := r :: w.made }.acquire (.owner r.object) c.object).changeContext c
        (·.enter (w.sessions s).id ⟨w.next⟩)) := of_eq rfl rfl
    exact hentered.trans (leased _ _)
  | drop o _ => exact of_sheds (sheds_releaseQuietly w .embedder o)
  | bury holder b _ _ => exact parted w holder b
  | part b c => exact of_sheds (sheds_releaseContext w _ c)
  | _ => exact of_eq rfl rfl

end Returns

theorem Returns.free (h : Returns w v) (hleases : w.leases = []) (hconflicts : w.conflicts = []) :
    v.leases = [] ∧ v.conflicts = [] := by
  refine ⟨h.leases.trans hleases, List.eq_nil_iff_forall_not_mem.2 fun l hl => ?_⟩
  rcases h.conflicts l hl with hbefore | ⟨m, hm, _⟩
  · rw [hconflicts] at hbefore
    exact List.not_mem_nil hbefore
  · rw [hleases] at hm
    exact List.not_mem_nil hm

theorem isFree_of_leases (h : w.leases = []) (l : Lease) : w.isFree l = true := by
  rw [isFree, h, List.all_nil]

theorem Evolves.returns {note : Notes σ} (h : Evolves note w v) : Returns w v :=
  h.invariant (I := Returns w) (fun _ _ _ m ha => ha.trans (.of_move m))
    (fun c a ha => ha.trans (.of_eq (v := a.noted note c) rfl rfl)) (.refl w)

theorem free_of_seen {w : World Diary} (h : w.Reached Diary.note []) : ∀ v ∈ w.seen, v.leases = [] ∧ v.conflicts = [] :=
  forall_seen ⟨rfl, rfl⟩ (fun m ha => Returns.free (.of_move m) ha.1 ha.2) h

theorem leases_of_seen {w : World Diary} (h : w.Reached Diary.note []) : ∀ v ∈ w.seen, v.leases = [] :=
  fun v hv => (free_of_seen h v hv).1

end World

/-- An application that starts from nothing sees no cell in use, with deeds inside the calls of other deeds to any
depth, and no lease is ever asked for in vain. -/
theorem cells_are_free_during_calls :
    (∀ {note : Notes σ} {w v : World σ}, World.Evolves note w v →
      v.leases = w.leases ∧
      ∀ l ∈ v.conflicts, l ∈ w.conflicts ∨ ∃ m ∈ w.leases, l.conflictsWith m = true) ∧
    ∀ {w : World Diary}, w.Reached Diary.note [] →
      (∀ v ∈ w.seen, v.leases = [] ∧ v.conflicts = []) ∧
      ∀ c u, (some c, u) ∈ w.embedder → ∀ l, u.isFree l = true := by
  refine ⟨fun h => ⟨h.returns.leases, h.returns.conflicts⟩, fun {w} h => ?_⟩
  have hseen := World.free_of_seen h
  refine ⟨hseen, fun c u hu l => ?_⟩
  have hmem : u ∈ w.seen := List.mem_cons_of_mem _ (List.mem_map_of_mem hu)
  exact World.isFree_of_leases (hseen u hmem).1 l

/-- While a host's change is carried, the host is changed again and two bridges end, and one made anew. A setter that
held its cell during all this would get in its own way. -/
theorem nested_changes_find_cells_free : ∃ (v w : World Diary) (react : Reaction Diary),
    v.Reached Diary.note [] ∧ World.Evolves Diary.note v w ∧
    some (.bridgeGone ⟨3⟩ ⟨5⟩ ⟨7⟩) ∈ w.embedder.map Prod.fst ∧
    w.bare.farewells = [⟨⟨5⟩, some ⟨3⟩⟩, ⟨⟨4⟩, some ⟨2⟩⟩] ∧ (w.bare.hosts ⟨2⟩).attached = none ∧
    w.bare.leases = [] ∧ w.bare.conflicts = [] ∧
    ((Op.withLease (.hostSettings ⟨2⟩) true (Host.set ⟨2⟩ (.javascriptEnabled false))).outcome react v).2.conflicts
      ≠ [] := by
  let deeds : List Deed :=
    [.makeContext {} none, .makeSession { id := ⟨7⟩ }, .makeHost {}, .makeCustomHost {} {}, .makeBridge ⟨0⟩ ⟨1⟩ ⟨2⟩,
      .makeBridge ⟨0⟩ ⟨1⟩ ⟨3⟩, .attach ⟨2⟩ ⟨4⟩]
  let v : World Diary := World.after Diary.note deeds { embedder := [] }
  -- the host that is told of the end of its bridge makes another one and looks at everything
  let told : Reaction Diary := fun c u =>
    World.after Diary.note [.makeBridge ⟨0⟩ ⟨1⟩ ⟨3⟩, .hasBridge ⟨2⟩, .countBridges ⟨0⟩, .readSettings ⟨2⟩]
      (u.noted Diary.note (some c))
  let meddled (u : World Diary) : World Diary :=
    World.after Diary.note [.set ⟨2⟩ (.userAgent (some "relay")), .drop ⟨.bridge, 4⟩] u
  let react : Reaction Diary := fun c u =>
    if c = .preferencesChanged ⟨1⟩ then
      ((Deed.drop ⟨.bridge, 5⟩).perform.outcome told (meddled (u.noted Diary.note (some c)))).2.noted Diary.note none
    else u.noted Diary.note (some c)
  let change : Deed := .set ⟨2⟩ (.javascriptEnabled false)
  let w : World Diary := (change.perform.outcome react v).2.noted Diary.note none
  have hv : v.Reached Diary.note [] := World.evolves_after Diary.note deeds (.still _)
  have htold : ∀ c u, World.Evolves Diary.note (u.noted Diary.note (some c)) (told c u) :=
    fun c u => World.evolves_after Diary.note _ (.still _)
  have hreact : ∀ c u, World.Evolves Diary.note (u.noted Diary.note (some c)) (react c u) := by
    intro c u
    dsimp only [react]
    split
    · exact .deed (World.evolves_after Diary.note _ (.still _)) _ told htold
    · exact .still _
  have hw : w.Reached Diary.note [] := .deed hv change react hreact
  obtain ⟨hseen, _⟩ := (cells_are_free_during_calls (σ := Diary)).2 hw
  obtain ⟨hleases, hconflicts⟩ := hseen w.bare List.mem_cons_self
  exact ⟨v, w, react, hv, .deed (.still v) change react hreact, by decide +kernel, by decide +kernel,
    by decide +kernel, hleases, hconflicts, by decide +kernel⟩

end SettingsRelay
