import SettingsRelay.Proofs.Calls
import SettingsRelay.Proofs.Slot

/-!
# Farewells

A bridge ends when the last share in it is given back, whatever operation gives it back. Its host is told once,
if it is alive: by a call, unless it is in memory, and nobody else is called. Until then no session, client or
service and no settings have changed, and what is left to do afterwards takes only shares away, so that what is
looked up is what the host has left in the registry. A host that is called finds the bridge dead and at most a
newer one in the registry.

Over a whole run each bridge that was made and is not alive has ended once, and no other has. The calls by which
hosts of the application's own are told are those farewells, one for one and in the same order.
-/

namespace SettingsRelay

variable {σ : Type}

open World (Move Registered Follows Continues SameBridges Slotted)

namespace World

variable {w v u : World σ} {holder : Holder} {b : BridgeRef}

/-! ## The end of one bridge -/

theorem told?_eq (w : World σ) (holder : Holder) (b : BridgeRef) :
    w.told? holder b = if (w.withdraw holder b.object).isAlive (w.bridges b).host.object then
      some (w.bridges b).host else none := by
  rw [← isAlive_bury]
  rfl

theorem farewell?_eq (w : World σ) (holder : Holder) (b : BridgeRef) :
    w.farewell? holder b =
      if (w.withdraw holder b.object).isAlive (w.bridges b).host.object &&
          !(w.hosts (w.bridges b).host).isInMemory then
        some (.bridgeGone (w.bridges b).host b (w.bridges b).sessionId) else none := by
  rw [farewell?, told?_eq]
  cases (w.withdraw holder b.object).isAlive (w.bridges b).host.object with
  | false => rfl
  | true => cases hmemory : (w.hosts (w.bridges b).host).isInMemory <;> simp [hmemory]

theorem settled_eq (u : World σ) (b : BridgeRef) (c : ContextRef) (told : Option HostRef) :
    u.settled b c told = { u with shares := (u.settled b c told).shares } := by
  cases told with
  | none => exact (sheds_releaseContext u _ c).same
  | some host =>
    have hcontext := (sheds_releaseContext (u.releaseQuietly .call host.object) (.owner b.object) c).same
    rw [releaseQuietly_eq u] at hcontext
    rw [settled, releaseQuietly_eq u]
    exact hcontext

theorem SameBridges.of_settled (u : World σ) (b : BridgeRef) (c : ContextRef) (told : Option HostRef) :
    SameBridges u (u.settled b c told) := by
  have hpart : ∀ v : World σ, SameBridges v (v.releaseContext (.owner b.object) c) := fun v =>
    .of_sheds (sheds_releaseContext v _ c) (by simp [Ref.object])
  cases told with
  | none => exact hpart u
  | some host =>
    exact (SameBridges.of_sheds (sheds_releaseQuietly u .call host.object) (by simp [Ref.object])).trans (hpart _)

theorem farewells_parted (w : World σ) (holder : Holder) (b : BridgeRef) :
    (w.parted holder b).farewells = w.farewells ++ [⟨b, w.told? holder b⟩] := by
  rw [parted_eq, bury_eq]

theorem settings_detach (w : World σ) (h k : HostRef) (b : BridgeRef) :
    ((w.detach h b).hosts k).settings = (w.hosts k).settings := by
  unfold detach
  split
  · split
    · rfl
    · rw [hosts_changeHost]
      split
      · exact Host.settings_withAttached _ _
      · rfl
  · rfl

theorem settings_parted (w : World σ) (holder : Holder) (b : BridgeRef) (h : HostRef) :
    ((w.parted holder b).hosts h).settings = (w.hosts h).settings := by
  unfold parted
  split
  · next host _ =>
    dsimp only
    split
    · refine (settings_detach _ host h b).trans ?_
      exact congrArg Host.settings (congrFun (w.hosts_bury holder b) h)
    · exact congrArg Host.settings (congrFun (w.hosts_bury holder b) h)
  · rw [hosts_bury]

end World

namespace Op

variable {w : World σ} {holder : Holder} {b : BridgeRef}

theorem outcome_release_last (react : Reaction σ) (hheld : ⟨holder, b.object⟩ ∈ w.shares)
    (hdead : (w.withdraw holder b.object).isAlive b.object = false) :
    (release holder b.object).outcome react w =
      ((), (react.answer (w.farewell? holder b) (w.parted holder b)).settled b (w.bridges b).context
        (w.told? holder b)) := by
  rw [release, if_pos (show b.object.kind = .bridge from rfl), outcome_get_bind, if_pos hheld, outcome_bind,
    outcome_modify, outcome_get_bind, hdead]
  exact Bridge.outcome_teardown react w holder b

theorem calls_release_bridge (react : Reaction σ)
    (halive : (w.withdraw holder b.object).isAlive b.object = true) :
    (release holder b.object).calls react w = [] := by
  have hwatched := outcome_release_bridge (w := w.watched []) react.watched halive
  rw [calls, hwatched]
  rfl

theorem calls_release_last (react : Reaction σ) (hheld : ⟨holder, b.object⟩ ∈ w.shares)
    (hdead : (w.withdraw holder b.object).isAlive b.object = false) :
    (release holder b.object).calls react w = (w.farewell? holder b).toList := by
  have hcall : (w.watched []).farewell? holder b = w.farewell? holder b := by
    rw [World.farewell?_eq, World.farewell?_eq]
    rfl
  have hparted : ((w.watched []).parted holder b).embedder.2 = [] := by
    rw [World.parted_eq, World.bury_eq]
    rfl
  have hwatched := outcome_release_last (w := w.watched []) react.watched hheld hdead
  rw [calls, hwatched]
  dsimp only
  rw [World.settled_eq, hcall]
  cases w.farewell? holder b with
  | none => exact hparted
  | some c =>
    refine (Reaction.calls_watched react c _).trans ?_
    rw [hparted]
    rfl

end Op

/-! ## The bridges that have ended -/

namespace World

variable {w v : World σ} {holder : Holder} {b : BridgeRef}

/-- Bridges end once, namely those that were made and are not alive any more. A host that was told of
an end was told about a bridge of its own. -/
structure Ended (w : World σ) : Prop where
  slotted : Slotted w
  nodup : (w.farewells.map Farewell.bridge).Nodup
  mem_iff : ∀ b, b ∈ w.farewells.map Farewell.bridge ↔ b ∈ w.made ∧ w.isAlive b.object = false
  told : ∀ f ∈ w.farewells, ∀ h ∈ f.told, (w.bridges f.bridge).host = h ∧ h.index < w.next

namespace Ended

variable (hw : Ended w) {call : Option Call}

include hw

theorem made_of_mem {f : Farewell} (hf : f ∈ w.farewells) : f.bridge ∈ w.made :=
  ((hw.mem_iff _).1 (List.mem_map_of_mem hf)).1

theorem host_of_told (m : Move w call v) {f : Farewell} (hf : f ∈ w.farewells) {h : HostRef} (hh : h ∈ f.told) :
    (v.bridges f.bridge).host = h ∧ h.index < v.next := by
  have hfollows : Follows v w := .of_move hw.slotted.registered m
  obtain ⟨hhost, hlt⟩ := hw.told f hf h hh
  rw [hfollows.bridges _ (hw.made_of_mem hf)]
  exact ⟨hhost, hlt.trans_le m.next_le⟩

theorem of_continues (m : Move w call v) (hlives : Continues w v) : Ended v := by
  have hfollows : Follows v w := .of_move hw.slotted.registered m
  refine ⟨hw.slotted.of_move m, ?_, fun b => ?_, ?_⟩
  · rw [hlives.farewells]
    exact hw.nodup
  · rw [hlives.farewells, hw.mem_iff]
    constructor
    · rintro ⟨hmade, hdead⟩
      exact ⟨hfollows.made.subset hmade, (hlives.alive b hmade).trans hdead⟩
    · rintro ⟨hmade, hdead⟩
      have hbefore : b ∈ w.made := (hlives.fresh b hmade).resolve_right (by simp [hdead])
      exact ⟨hbefore, (hlives.alive b hbefore).symm.trans hdead⟩
  · rw [hlives.farewells]
    exact fun f hf h hh => hw.host_of_told m hf hh

theorem parted (hheld : ⟨holder, b.object⟩ ∈ w.shares)
    (hdead : (w.withdraw holder b.object).isAlive b.object = false) : Ended (w.parted holder b) := by
  have m : Move w (w.farewell? holder b) (w.parted holder b) := .bury w holder b hheld hdead
  have hsame : SameBridges (w.bury holder b) (w.parted holder b) := .of_parted w holder b
  have halive : w.isAlive b.object = true := isAlive_iff.2 ⟨holder, hheld⟩
  refine ⟨hw.slotted.of_move m, ?_, fun a => ?_, ?_⟩
  · rw [farewells_parted, List.map_append, List.nodup_append]
    refine ⟨hw.nodup, List.nodup_singleton _, fun a ha c hc => ?_⟩
    rintro rfl
    rw [List.mem_singleton.1 hc, hw.mem_iff] at ha
    exact absurd (halive.symm.trans ha.2) (by simp)
  · rw [farewells_parted, List.map_append, List.mem_append, hw.mem_iff, hsame.made, made_bury, isAlive_parted]
    by_cases hab : a = b
    · subst hab
      simp [hdead, hw.slotted.registered.made_of_alive a halive]
    · have hne : b.object ≠ a.object := fun heq => hab (Ref.object_injective heq).symm
      simp [isAlive_withdraw_of_ne hne, hab]
  · rw [farewells_parted]
    intro f hf h hh
    rcases List.mem_append.1 hf with hf | hf
    · exact hw.host_of_told m hf hh
    · rw [List.mem_singleton.1 hf] at hh ⊢
      rw [told?_eq] at hh
      split at hh
      · next hhost =>
        cases hh
        rw [hsame.bridges, bridges_bury]
        exact ⟨rfl, (hw.slotted.host_lt _ (isAlive_of_withdraw hhost)).trans_le m.next_le⟩
      · cases hh

theorem of_move (m : Move w call v) : Ended v := by
  rcases m.ending_cases hw.slotted.registered with ⟨hlives, _⟩ | ⟨holder, b, hheld, hdead, _, rfl⟩
  · exact hw.of_continues m hlives
  · exact hw.parted hheld hdead

end Ended

theorem Ended.initial (start : σ) : Ended ({ embedder := start } : World σ) where
  slotted := .initial start
  nodup := List.nodup_nil
  mem_iff b := by simp
  told f hf := by simp at hf

theorem ended_bare {w : World σ} : Ended w.bare ↔ Ended w :=
  ⟨fun h => ⟨slotted_bare.1 h.slotted, h.nodup, h.mem_iff, h.told⟩,
    fun h => ⟨slotted_bare.2 h.slotted, h.nodup, h.mem_iff, h.told⟩⟩

theorem Ended.of_seen {w : World Diary} (h : w.Reached Diary.note []) : ∀ v ∈ w.seen, Ended v :=
  forall_seen (.initial ()) (fun m ha => ended_bare.2 ((ended_bare.1 ha).of_move m)) h

end World

/-! ## Who was called -/

def Call.goodbye? : Call → Option (HostRef × BridgeRef)
  | bridgeGone h b _ => some (h, b)
  | _ => none

theorem Call.goodbye?_eq_none {c : Call} (h : c.isFarewell = false) : c.goodbye? = none := by
  cases c <;> first | rfl | cases h

def Diary.goodbyes (d : Diary) : List (HostRef × BridgeRef) :=
  d.reverse.filterMap fun e => e.1.bind Call.goodbye?

theorem Diary.goodbyes_cons (e : Option Call × World Unit) (d : Diary) :
    goodbyes (e :: d) = goodbyes d ++ (e.1.bind Call.goodbye?).toList := by
  rw [goodbyes, List.reverse_cons, List.filterMap_append, List.filterMap_cons, List.filterMap_nil]
  cases e.1.bind Call.goodbye? <;> rfl

namespace World

variable {w v : World σ} {holder : Holder} {b : BridgeRef}

/-- The farewells for hosts of the application's own, in order. Hosts in memory are told without a
call. -/
def partings (w : World σ) : List (HostRef × BridgeRef) :=
  w.farewells.filterMap fun f => (f.told.filter fun h => !(w.hosts h).isInMemory).map (·, f.bridge)

def madeSince (w : World σ) (b : BridgeRef) : List BridgeRef := w.made.takeWhile (· ≠ b)

/-- A search that would stop at one bridge and finds another has found a later one. -/
theorem mem_takeWhile_of_find? {made : List BridgeRef} {p : BridgeRef → Bool} {a b : BridgeRef}
    (hb : p b = true) (hab : a ≠ b) (hfound : made.find? p = some a) : a ∈ made.takeWhile (· ≠ b) := by
  induction made with
  | nil => cases hfound
  | cons c rest ih =>
    by_cases hc : c = b
    · rw [hc, List.find?_cons_of_pos hb] at hfound
      exact absurd (Option.some_inj.1 hfound).symm hab
    · rw [List.takeWhile_cons_of_pos (by simp [hc])]
      by_cases hp : p c = true
      · rw [List.find?_cons_of_pos hp] at hfound
        exact List.mem_cons.2 (.inl (Option.some_inj.1 hfound).symm)
      · rw [List.find?_cons_of_neg hp] at hfound
        exact List.mem_cons_of_mem _ (ih hfound)

structure Told (w : World σ) (h : HostRef) (b : BridgeRef) (id : SessionId) : Prop where
  host : (w.bridges b).host = h
  sessionId : (w.bridges b).sessionId = id
  alive : w.isAlive h.object = true
  custom : (w.hosts h).isInMemory = false
  dead : w.isAlive b.object = false
  last : w.farewells.getLast? = some ⟨b, some h⟩
  struck : ∀ react a, ((Registry.find? (w.bridges b).context id).outcome react w).1 = some a →
    a ∈ w.madeSince b

namespace Ended

variable (hw : Ended w) {call : Option Call}

include hw

/-- A move adds to the farewells for hosts of the application's own what it calls them for. -/
theorem partings_of_move (m : Move w call v) :
    v.partings = w.partings ++ (call.bind Call.goodbye?).toList := by
  have hbefore : w.farewells.filterMap
      (fun f => (f.told.filter fun h => !(v.hosts h).isInMemory).map (·, f.bridge)) = w.partings := by
    refine List.filterMap_congr fun f hf => ?_
    cases htold : f.told with
    | none => rfl
    | some h => rw [Option.filter_some, Option.filter_some, m.isInMemory_of_lt (hw.told f hf h htold).2]
  rcases m.ending_cases hw.slotted.registered with ⟨hlives, hquiet⟩ | ⟨holder, b, hheld, hdead, rfl, rfl⟩
  · have hnobody : call.bind Call.goodbye? = none := by
      cases call with
      | none => rfl
      | some c => exact Call.goodbye?_eq_none (hquiet c rfl)
    rw [partings, hlives.farewells, hbefore, hnobody, Option.toList_none, List.append_nil]
  · rw [partings, farewells_parted, List.filterMap_append, hbefore, told?_eq, farewell?_eq]
    refine congrArg (w.partings ++ ·) ?_
    cases hhost : (w.withdraw holder b.object).isAlive (w.bridges b).host.object with
    | false => rfl
    | true =>
      have hkind : ((w.parted holder b).hosts (w.bridges b).host).isInMemory =
          (w.hosts (w.bridges b).host).isInMemory := (host_parted hdead _).1
      cases hmemory : (w.hosts (w.bridges b).host).isInMemory <;> simp [hkind, hmemory, Call.goodbye?]

/-- When a host is called the bridge is dead, its end is the last one noted, and where its session had
it in the registry there is a bridge made since, if any. -/
theorem told_of_move {h : HostRef} {id : SessionId} (m : Move w (some (.bridgeGone h b id)) v) :
    v.bare.Told h b id := by
  rcases m.ending_cases hw.slotted.registered with ⟨_, hquiet⟩ | ⟨holder, a, hheld, hdead, hcall, rfl⟩
  · exact absurd (hquiet _ rfl) (by simp [Call.isFarewell])
  · rw [farewell?_eq] at hcall
    split at hcall
    · next hboth =>
      cases hcall
      rw [Bool.and_eq_true, Bool.not_eq_true'] at hboth
      have hsame : SameBridges (w.bury holder b) (w.parted holder b) := .of_parted w holder b
      have hbridges : (w.parted holder b).bridges = w.bridges := hsame.bridges.trans (w.bridges_bury holder b)
      have hgone : (w.parted holder b).isAlive b.object = false :=
        (isAlive_parted w holder b b.object).trans hdead
      have hregistered : Registered (w.parted holder b).bare :=
        registered_bare.2 (hw.slotted.registered.of_move m)
      refine ⟨congrArg (fun bs => (bs b).host) hbridges, congrArg (fun bs => (bs b).sessionId) hbridges,
        (isAlive_parted w holder b _).trans hboth.1, (host_parted hdead _).1.trans hboth.2, hgone, ?_, ?_⟩
      · change (w.parted holder b).farewells.getLast? = _
        rw [farewells_parted, List.getLast?_append_of_ne_nil _ (by simp), told?_eq, if_pos hboth.1]
        rfl
      · intro react c hfound
        rw [hregistered.find?_eq, living?, Option.filter_eq_some_iff] at hfound
        refine mem_takeWhile_of_find? ?_ ?_ hfound.1
        · have hid : ((w.parted holder b).bare.bridges b).sessionId = (w.bridges b).sessionId :=
            congrArg (fun bs => (bs b).sessionId) hbridges
          simp [hid]
        · rintro rfl
          exact absurd (hfound.2.symm.trans hgone) (by simp)
    · cases hcall

end Ended

/-- The calls that an application has noted are the farewells for its own hosts, at each moment that
it has noted, and at each of these calls the host finds what it should. -/
structure Accounted (w : World Diary) : Prop where
  ended : Ended w
  goodbyes : Diary.goodbyes w.embedder = w.partings
  moments : ∀ e rest, e :: rest <:+ w.embedder → Diary.goodbyes (e :: rest) = e.2.partings
  told : ∀ h b id u, (some (.bridgeGone h b id), u) ∈ w.embedder → u.Told h b id

namespace Accounted

variable {w v : World Diary} (hw : Accounted w)

include hw

theorem of_move (m : Move w none v) : Accounted v := by
  have hembedder : v.embedder = w.embedder := m.frame.2
  refine ⟨hw.ended.of_move m, ?_, ?_, ?_⟩
  · rw [hembedder, hw.goodbyes, hw.ended.partings_of_move m, Option.bind_none, Option.toList_none,
      List.append_nil]
  · rw [hembedder]
    exact hw.moments
  · rw [hembedder]
    exact hw.told

theorem noted {call : Option Call} (hended : Ended v) (hembedder : v.embedder = w.embedder)
    (hpartings : v.partings = w.partings ++ (call.bind Call.goodbye?).toList)
    (htold : ∀ h b id, call = some (.bridgeGone h b id) → v.bare.Told h b id) :
    Accounted (v.noted Diary.note call) := by
  have hentry : Diary.goodbyes ((call, v.bare) :: v.embedder) = v.partings := by
    rw [Diary.goodbyes_cons, hembedder, hw.goodbyes, hpartings]
  have hbare : Ended v.bare := ended_bare.2 hended
  refine ⟨ended_bare.1 hbare, hentry, fun e rest hrest => ?_, fun h b id u hu => ?_⟩
  · rcases List.suffix_cons_iff.1 hrest with heq | hrest
    · cases heq
      exact hentry
    · exact hw.moments e rest (hembedder ▸ hrest)
  · rcases List.mem_cons.1 hu with heq | hu
    · cases heq
      exact htold h b id rfl
    · exact hw.told h b id u (hembedder ▸ hu)

end Accounted

theorem Accounted.of_reached {w : World Diary} (h : w.Reached Diary.note []) : Accounted w := by
  have hstart : Accounted ({ embedder := [] } : World Diary) :=
    ⟨.initial [], rfl, fun e rest hrest => by simp at hrest, fun h b id u hu => by simp at hu⟩
  refine h.keeps (fun a b m ha => ha.of_move m) (fun a c b m ha => ?_) (fun a ha => ?_) hstart
  · refine ha.noted (ha.ended.of_move m) m.frame.2 (ha.ended.partings_of_move m) fun h b id hcall => ?_
    rw [hcall] at m
    exact ha.ended.told_of_move m
  · exact ha.noted ha.ended rfl (by simp) fun h b id hcall => by cases hcall

end World

/-- A bridge ends exactly when the last share in it is given back, and its host is told of that once. In a whole run
no farewell is missing, and none is made up. -/
theorem bridge_ends_once :
    (∀ {σ : Type} (w : World σ) (react : Reaction σ) (holder : Holder) (b : BridgeRef),
      ⟨holder, b.object⟩ ∈ w.shares →
      let left := w.withdraw holder b.object
      let host := (w.bridges b).host
      let told := if left.isAlive host.object then some host else none
      let call := if left.isAlive host.object && !(w.hosts host).isInMemory then
        some (Call.bridgeGone host b (w.bridges b).sessionId) else none
      let parted := w.parted holder b
      (left.isAlive b.object = true →
        (Op.release holder b.object).outcome react w = ((), left) ∧
        (Op.release holder b.object).calls react w = []) ∧
      (left.isAlive b.object = false →
        (Op.release holder b.object).outcome react w =
          ((), (react.answer call parted).settled b (w.bridges b).context told) ∧
        (Op.release holder b.object).calls react w = call.toList ∧
        parted.farewells = w.farewells ++ [⟨b, told⟩] ∧
        parted.sessions = w.sessions ∧ parted.clients = w.clients ∧ parted.services = w.services ∧
        ∀ h, (parted.hosts h).settings = (w.hosts h).settings) ∧
      ∀ u : World σ, let v := u.settled b (w.bridges b).context told
        v = { u with shares := v.shares } ∧
        ∀ c id, ((Registry.find? c id).outcome react v).1 = ((Registry.find? c id).outcome react u).1) ∧
    ∀ {w : World Diary}, w.Reached Diary.note [] →
      (∀ v ∈ w.seen, (v.farewells.map Farewell.bridge).Nodup ∧
        (∀ b, b ∈ v.farewells.map Farewell.bridge ↔ b ∈ v.made ∧ v.isAlive b.object = false) ∧
        ∀ f ∈ v.farewells, ∀ h ∈ f.told, (v.bridges f.bridge).host = h) ∧
      (∀ e rest, e :: rest <:+ w.embedder → Diary.goodbyes (e :: rest) = e.2.partings) ∧
      ∀ h b id u, (some (.bridgeGone h b id), u) ∈ w.embedder → u.Told h b id := by
  constructor
  · intro σ w react holder b hheld left host told call parted
    have htold : w.told? holder b = told := w.told?_eq holder b
    have hcall : w.farewell? holder b = call := w.farewell?_eq holder b
    refine ⟨fun halive => ⟨Op.outcome_release_bridge react halive, Op.calls_release_bridge react halive⟩,
      fun hdead => ⟨?_, ?_, ?_, ?_, ?_, ?_, w.settings_parted holder b⟩, ?_⟩
    · rw [Op.outcome_release_last react hheld hdead, htold, hcall]
    · rw [Op.calls_release_last react hheld hdead, hcall]
    · rw [← htold]
      exact w.farewells_parted holder b
    · change (w.parted holder b).sessions = w.sessions
      rw [World.parted_eq, World.bury_eq]
    · change (w.parted holder b).clients = w.clients
      rw [World.parted_eq, World.bury_eq]
    · change (w.parted holder b).services = w.services
      rw [World.parted_eq, World.bury_eq]
    · intro u v
      have hsame : SameBridges u v := .of_settled u b _ told
      refine ⟨World.settled_eq u b _ told, fun c id => ?_⟩
      rw [Registry.outcome_find?, Registry.outcome_find?]
      dsimp only
      rw [Context.entered?, hsame.registry]
      exact World.living?_congr fun a _ => hsame.bridge_alive a
  · intro w hw
    have haccounted := World.Accounted.of_reached hw
    refine ⟨fun v hv => ?_, haccounted.moments, haccounted.told⟩
    have hended := World.Ended.of_seen hw v hv
    exact ⟨hended.nodup, hended.mem_iff, fun f hf h hh => (hended.told f hf h hh).1⟩

/-- A host of the application's own is told that its bridge has ended and makes another one for the
same session, which stays in the registry. -/
theorem bridge_made_in_farewell_stays : ∃ (v w : World Diary) (react : Reaction Diary),
    v.Reached Diary.note [] ∧ World.Evolves Diary.note v w ∧
    (Op.release .embedder (⟨3⟩ : BridgeRef).object).calls react v = [.bridgeGone ⟨2⟩ ⟨3⟩ ⟨7⟩] ∧
    Diary.goodbyes w.embedder = [(⟨2⟩, ⟨3⟩)] ∧
    w.bare.isAlive (⟨3⟩ : BridgeRef).object = false ∧
    ((Registry.find? ⟨0⟩ ⟨7⟩).outcome (fun _ u => u) w.bare).1 = some ⟨4⟩ := by
  let deeds : List Deed :=
    [.makeContext {} none, .makeSession { id := ⟨7⟩ }, .makeCustomHost {} {}, .makeBridge ⟨0⟩ ⟨1⟩ ⟨2⟩]
  let v : World Diary := World.after Diary.note deeds { embedder := [] }
  let react : Reaction Diary := fun c u =>
    World.after Diary.note [.makeBridge ⟨0⟩ ⟨1⟩ ⟨2⟩] (u.noted Diary.note (some c))
  let w : World Diary := (((Deed.drop ⟨.bridge, 3⟩).perform.outcome react v).2.noted Diary.note none)
  have hv : v.Reached Diary.note [] := World.evolves_after Diary.note deeds (.still _)
  have hreact : ∀ c u, World.Evolves Diary.note (u.noted Diary.note (some c)) (react c u) :=
    fun c u => World.evolves_after Diary.note _ (.still _)
  have hw : w.Reached Diary.note [] := .deed hv (.drop ⟨.bridge, 3⟩) react hreact
  obtain ⟨hrelease, hrun⟩ := bridge_ends_once
  obtain ⟨_, hends, _⟩ := hrelease v react .embedder ⟨3⟩ (by decide +kernel)
  obtain ⟨_, hcalls, _⟩ := hends (by decide +kernel)
  obtain ⟨hseen, hmoments, _⟩ := hrun hw
  have hended : (⟨3⟩ : BridgeRef) ∈ w.bare.farewells.map Farewell.bridge := by decide +kernel
  refine ⟨v, w, react, hv, .deed (.still v) _ react hreact, hcalls.trans (by decide +kernel),
    (hmoments _ _ (List.suffix_refl _)).trans (by decide +kernel),
    (((hseen w.bare List.mem_cons_self).2.1 ⟨3⟩).1 hended).2, by decide +kernel⟩

end SettingsRelay
