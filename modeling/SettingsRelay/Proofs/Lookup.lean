import Mathlib.Data.Set.Card
import SettingsRelay.Proofs.Registry

/-!
# Lookups over whole runs

In every world that an application sees, between deeds or when it is called, a bridge that is looked up is the
newest of its session and alive. The bridges of a context are counted exactly: they are all its entries, one for
each session whose newest bridge is alive. Once a bridge is not the newest any more it is never found again,
however long it lives.
-/

namespace SettingsRelay

variable {σ τ υ : Type}

open World (Move Registered)

namespace World

/-! ## What is looked up and counted -/

namespace Registered

variable {w : World σ} (hw : Registered w) (react : Reaction σ) (c : ContextRef)

include hw

theorem find?_eq (id : SessionId) :
    ((Registry.find? c id).outcome react w).1 = w.living? (w.newest? c id) := by
  rw [Registry.outcome_find?, hw.entered, living?, living?, Option.filter_filter]
  simp only [Bool.and_self]

theorem size_eq : Registry.size w c = (w.contexts c).registry.length := by
  rw [Registry.size, List.filter_eq_self.2]
  rintro ⟨id, b⟩ hmem
  exact (hw.of_entered (Context.lookup_of_mem (hw.single c) hmem)).2.2

theorem count_eq : ((Registry.count c).outcome react w).1 = (w.contexts c).registry.length := by
  rw [Registry.count, Op.outcome_readCell]
  exact hw.size_eq c

/-- The sessions that have an entry are those whose newest bridge is alive. -/
theorem length_registry :
    (w.contexts c).registry.length = {id | (w.living? (w.newest? c id)).isSome}.ncard := by
  have hset : {id | (w.living? (w.newest? c id)).isSome} =
      (((w.contexts c).registry.map (·.1)).toFinset : Set SessionId) := by
    ext id
    rw [Set.mem_ofPred_eq, ← hw.entered, Option.isSome_iff_exists, List.coe_toFinset, Set.mem_ofPred_eq,
      List.mem_map]
    constructor
    · rintro ⟨b, hb⟩
      exact ⟨(id, b), Context.mem_of_entered? hb, rfl⟩
    · rintro ⟨⟨_, b⟩, hmem, rfl⟩
      exact ⟨b, Context.lookup_of_mem (hw.single c) hmem⟩
  rw [hset, Set.ncard_coe_finset, List.toFinset_card_of_nodup (hw.single c), List.length_map]

end Registered

theorem registered_bare {w : World σ} : Registered w.bare ↔ Registered w :=
  ⟨fun h => ⟨h.entered, h.single, h.made_of_alive, h.made_nodup, h.made_lt, h.context_lt, h.alive_lt⟩,
    fun h => ⟨h.entered, h.single, h.made_of_alive, h.made_nodup, h.made_lt, h.context_lt, h.alive_lt⟩⟩

/-! ## Earlier and later worlds -/

/-- A world in which all bridges of another one have been made, and perhaps newer ones. -/
structure Follows (w : World σ) (v : World τ) : Prop where
  made : v.made <:+ w.made
  bridges : ∀ b ∈ v.made, w.bridges b = v.bridges b

namespace Follows

theorem refl (w : World σ) : Follows w w := ⟨List.suffix_refl _, fun _ _ => rfl⟩

theorem trans {w : World σ} {v : World τ} {u : World υ} (hwv : Follows w v) (hvu : Follows v u) :
    Follows w u where
  made := hvu.made.trans hwv.made
  bridges b hb := (hwv.bridges b (hvu.made.subset hb)).trans (hvu.bridges b hb)

theorem of_move {w v : World σ} (hw : Registered w) {call : Option Call} (m : Move w call v) : Follows v w := by
  rcases m.bridge_cases with ⟨hsame, _⟩ | ⟨switches, service, _, _, rfl⟩ | ⟨c, s, h, _, _, rfl⟩ |
    ⟨holder, b, _, _, _, rfl⟩
  · exact ⟨by rw [hsame.made], fun b _ => by rw [hsame.bridges]⟩
  · cases service <;> exact ⟨List.suffix_refl _, fun _ _ => rfl⟩
  · exact ⟨List.suffix_cons _ _, fun b hb => hw.bridges_makeBridge hb⟩
  · have hsame := SameBridges.of_parted w holder b
    exact ⟨by rw [hsame.made, made_bury], fun a _ => by rw [hsame.bridges, bridges_bury]⟩

/-- A bridge that was made but is not the newest of its session never will be. -/
theorem newest?_ne {w : World σ} {v : World τ} (hw : w.made.Nodup) (h : Follows w v) {c : ContextRef}
    {id : SessionId} {b : BridgeRef} (hb : b ∈ v.made) (hold : v.newest? c id ≠ some b) :
    w.newest? c id ≠ some b := by
  obtain ⟨newer, hmade⟩ := h.made
  have hsame : v.made.find? (fun b => (w.bridges b).context = c && (w.bridges b).sessionId = id) =
      v.newest? c id := List.find?_congr fun b hb => by rw [h.bridges b hb]
  intro hnewest
  -- a bridge is made once, so that the search meets this one only after it has met those made since
  rw [newest?, ← hmade, List.find?_append, hsame] at hnewest
  rcases Option.or_eq_some_iff.1 hnewest with hnewer | ⟨_, holder⟩
  · rw [← hmade] at hw
    exact (List.disjoint_of_nodup_append hw) (List.mem_of_find?_eq_some hnewer) hb
  · exact hold holder

end Follows

/-! ## Diaries -/

/-- All worlds that were seen are in order, and each follows those seen before. -/
structure Chronicled (w : World Diary) : Prop where
  registered : ∀ v ∈ w.seen, Registered v
  ordered : w.seen.Pairwise Follows

namespace Chronicled

theorem of_move {w v : World Diary} {call : Option Call} (m : Move w call v) (hw : Chronicled w) : Chronicled v := by
  have hpresent : Registered w := registered_bare.1 (hw.registered _ List.mem_cons_self)
  obtain ⟨hnow, hbefore⟩ := List.pairwise_cons.1 hw.ordered
  have hseen : v.seen = v.bare :: w.embedder.map Prod.snd := by rw [seen, m.frame.2]
  constructor
  · rw [hseen]
    intro u hu
    rcases List.mem_cons.1 hu with rfl | hu
    · exact registered_bare.2 (hpresent.of_move m)
    · exact hw.registered u (List.mem_cons_of_mem _ hu)
  · have hfollows : Follows v.bare w.bare :=
      ⟨(Follows.of_move hpresent m).made, (Follows.of_move hpresent m).bridges⟩
    rw [hseen]
    exact List.pairwise_cons.2 ⟨fun u hu => hfollows.trans (hnow u hu), hbefore⟩

theorem noted {w : World Diary} (c : Option Call) (hw : Chronicled w) :
    Chronicled (w.noted Diary.note c) := by
  have hseen : (w.noted Diary.note c).seen = w.bare :: w.seen := rfl
  constructor
  · rw [hseen]
    intro u hu
    rcases List.mem_cons.1 hu with rfl | hu
    · exact hw.registered _ List.mem_cons_self
    · exact hw.registered u hu
  · rw [hseen]
    refine List.pairwise_cons.2 ⟨fun u hu => ?_, hw.ordered⟩
    rcases List.mem_cons.1 hu with rfl | hu
    · exact .refl _
    · exact (List.pairwise_cons.1 hw.ordered).1 u hu

theorem of_reached {w : World Diary} (h : w.Reached Diary.note []) : Chronicled w := by
  refine h.invariant (fun _ _ _ => of_move) (fun c _ => noted c) ⟨?_, List.pairwise_singleton _ _⟩
  intro v hv
  rw [List.mem_singleton.1 hv]
  exact .initial ()

end Chronicled

end World

/-- In every world that an application sees, the bridge that is found for a session is its newest one, as long as that
is alive, and the bridges that are counted are those. A replaced bridge is never found again. -/
theorem newest_is_found {w : World Diary} (h : w.Reached Diary.note []) :
    (∀ v ∈ w.seen, ∀ (react : Reaction Unit) (c : ContextRef),
      (∀ id, (v.contexts c).entered? id = v.living? (v.newest? c id)) ∧
      (∀ id, ((Registry.find? c id).outcome react v).1 = v.living? (v.newest? c id)) ∧
      ((Registry.count c).outcome react v).1 = {id | (v.living? (v.newest? c id)).isSome}.ncard ∧
      ((Registry.count c).outcome react v).1 = (v.contexts c).registry.length) ∧
    w.seen.Pairwise fun later earlier => ∀ (react : Reaction Unit) (c : ContextRef) (id : SessionId),
      ∀ b ∈ earlier.made, earlier.newest? c id ≠ some b →
        ((Registry.find? c id).outcome react later).1 ≠ some b := by
  have hw := World.Chronicled.of_reached h
  constructor
  · intro v hv react c
    have hv := hw.registered v hv
    refine ⟨hv.entered c, hv.find?_eq react c, ?_, hv.count_eq react c⟩
    rw [hv.count_eq, hv.length_registry]
  · refine hw.ordered.imp_of_mem fun {later earlier} hlater _ hfollows react c id b hb hold hfound => ?_
    have hlater := hw.registered later hlater
    rw [hlater.find?_eq, World.living?, Option.filter_eq_some_iff] at hfound
    exact hfollows.newest?_ne hlater.made_nodup hb hold hfound.1

/-- When the newer of two bridges of a session ends, the older one is alive and is not found. -/
theorem older_bridge_not_found : ∃ w : World Diary, w.Reached Diary.note [] ∧
    w.bare.isAlive (⟨3⟩ : BridgeRef).object = true ∧
    w.bare.newest? ⟨0⟩ ⟨7⟩ = some ⟨4⟩ ∧
    ((Registry.find? ⟨0⟩ ⟨7⟩).outcome (fun _ u => u) w.bare).1 = none ∧
    ((Registry.count ⟨0⟩).outcome (fun _ u => u) w.bare).1 = 0 := by
  let deeds : List Deed :=
    [.makeContext {} none, .makeSession { id := ⟨7⟩ }, .makeHost {}, .makeBridge ⟨0⟩ ⟨1⟩ ⟨2⟩,
      .makeBridge ⟨0⟩ ⟨1⟩ ⟨2⟩, .drop ⟨.bridge, 4⟩]
  let w : World Diary := World.after Diary.note deeds { embedder := [] }
  have hw : w.Reached Diary.note [] := World.evolves_after Diary.note deeds (.still _)
  obtain ⟨_, hfind, _, hcount⟩ := (newest_is_found hw).1 w.bare List.mem_cons_self (fun _ u => u) ⟨0⟩
  have hnewest : w.bare.newest? ⟨0⟩ ⟨7⟩ = some ⟨4⟩ := by decide +kernel
  have hended : w.bare.isAlive (⟨4⟩ : BridgeRef).object = false := by decide +kernel
  have hstruck : (w.bare.contexts ⟨0⟩).registry = [] := by decide +kernel
  refine ⟨w, hw, by decide +kernel, hnewest, ?_, ?_⟩
  · rw [hfind, hnewest, World.living?_of_dead hended]
  · rw [hcount, hstruck, List.length_nil]

end SettingsRelay
