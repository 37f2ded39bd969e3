import SettingsRelay.Proofs.Edit

/-!
# Edits inside edits

An edit that changes a user agent calls the session once for the user agent itself and once for each
navigation entry, and in each of these calls the application may edit the host again, with more
edits inside those. What such a plan comes to is worked out here without any world: the update that
is made last decides on the user agent, but the mark of an entry is decided by the update that passes
the entry last, and an update goes on to mark entries for its own user agent when a later one has
been made in the middle of it.
-/

namespace SettingsRelay

/-- Edits of one host, one after the other. In the call at each place of an edit further edits are
made: place zero is the call for the user agent, and place `i + 1` the one for the entry `i`. -/
inductive Plan where
  | done
  | step (edit : Edit) (during : Nat → Plan) (next : Plan)

def Edit.agent? (edit : Edit) : Option (Option String) :=
  if edit.isTaken then
    match edit with
    | set (.userAgent agent) => some (agent.filter (· ≠ ""))
    | replace settings => some settings.userAgent
    | _ => none
  else none

def Channel.carriesAgent : Channel → Bool
  | userAgent | everything => true
  | _ => false

/-- What there is of a user agent: the settings of the host, the user agent that the session was given
last and the marks of its entries. -/
structure Guise where
  settings : Settings
  given : Option String
  marks : List Bool

/-- What is changed for a user agent before the call at a place. -/
def Guise.touch (x : Guise) (agent : Option String) : Nat → Guise
  | 0 => { x with given := agent }
  | i + 1 => { x with marks := x.marks.set i agent.isSome }

/-- What becomes of a guise in the calls at some places, the latest first. -/
def Guise.sweep (x : Guise) (agent : Option String) (during : Nat → Guise → Guise) (ks : List Nat) : Guise :=
  ks.foldr (fun k y => during k (y.touch agent k)) x

/-- The places of the calls for a user agent in a session with `n` entries, the latest first. -/
def places (agent : Option String) (n : Nat) : List Nat :=
  ((List.range n).map (· + 1)).reverse ++ if agent.isSome then [0] else []

namespace Plan

def play : Plan → Guise → Guise
  | done, x => x
  | step edit during next, x =>
    let stored := { x with settings := edit.apply x.settings }
    next.play <| match edit.agent? with
      | some agent => stored.sweep agent (fun k => (during k).play) (places agent x.marks.length)
      | none => stored

def agent? (n : Nat) : Plan → Option (Option String)
  | done => none
  | step edit during next =>
    (next.agent? n).or (edit.agent?.map fun agent =>
      ((places agent n).findSome? fun k => (during k).agent? n).getD agent)

/-- The mark that an entry is given last, if it is given one. Of the updates inside an edit only those
count that are made when the edit has marked the entry. -/
def mark? (n i : Nat) : Plan → Option Bool
  | done => none
  | step edit during next =>
    (next.mark? n i).or (edit.agent?.map fun agent =>
      (((places agent n).filter (i < ·)).findSome? fun k => (during k).mark? n i).getD agent.isSome)

/-- No update made inside another one sets a user agent where the other has none, or takes it away. -/
def Steady (n : Nat) : Plan → Prop
  | done => True
  | step edit during next =>
    (∀ agent ∈ edit.agent?, ∀ k ∈ places agent n, (during k).Steady n ∧
      ∀ inner ∈ (during k).agent? n, inner.isSome = agent.isSome) ∧ next.Steady n

end Plan

namespace Edit

variable {edit : Edit} {agent : Option String}

theorem userAgent_apply (h : edit.agent? = some agent) (s : Settings) : (edit.apply s).userAgent = agent := by
  unfold agent? at h
  unfold apply
  split at h
  · next htaken =>
    rw [if_pos htaken]
    cases edit with
    | replace settings =>
      cases h
      rfl
    | set change => cases change <;> cases h; rfl
  · cases h

theorem agent?_of_taken (h : edit.isTaken = true) (s : Settings) :
    edit.agent? = if edit.channel.carriesAgent then some (edit.store s).userAgent else none := by
  unfold agent?
  rw [if_pos h]
  cases edit with
  | replace settings => rfl
  | set change => cases change <;> rfl

theorem agent?_of_not_taken (h : edit.isTaken = false) : edit.agent? = none := by
  unfold agent?
  rw [if_neg (by simp [h])]

theorem userAgent_apply_of_none (h : edit.agent? = none) (s : Settings) :
    (edit.apply s).userAgent = s.userAgent := by
  unfold agent? at h
  unfold apply
  split
  · next htaken =>
    rw [if_pos htaken] at h
    cases edit with
    | replace settings => cases h
    | set change =>
      cases change with
      | userAgent agent => cases h
      | _ => rfl
  · rfl

end Edit

theorem mem_places {agent : Option String} {n i : Nat} (hi : i < n) : i + 1 ∈ places agent n := by
  simp [places, hi]

theorem pairwise_places (agent : Option String) (n : Nat) : (places agent n).Pairwise (· > ·) := by
  rw [places, List.pairwise_append, List.pairwise_reverse, List.pairwise_map]
  refine ⟨List.pairwise_lt_range.imp Nat.succ_lt_succ, by split <;> simp, fun k hk l hl => ?_⟩
  have hzero : l = 0 := by
    split at hl
    · simpa using hl
    · cases hl
  obtain ⟨i, _, rfl⟩ := List.mem_map.1 (List.mem_reverse.1 hk)
  rw [hzero]
  exact Nat.succ_pos i

namespace Guise

@[simp] theorem settings_touch (x : Guise) (agent : Option String) (k : Nat) :
    (x.touch agent k).settings = x.settings := by
  cases k <;> rfl

@[simp] theorem length_touch (x : Guise) (agent : Option String) (k : Nat) :
    (x.touch agent k).marks.length = x.marks.length := by
  cases k with
  | zero => rfl
  | succ i => exact List.length_set

/-- What is given is what the host has, if that has a user agent. -/
def Current (x : Guise) : Prop := ∀ agent, x.settings.userAgent = some agent → x.given = some agent

/-! ## Sweeps -/

section Sweep

variable {agent : Option String} {during : Nat → Guise → Guise} {n : Nat}
  (hlength : ∀ k y, (during k y).marks.length = y.marks.length)

include hlength

theorem length_sweep (x : Guise) (ks : List Nat) : (x.sweep agent during ks).marks.length = x.marks.length := by
  induction ks with
  | nil => rfl
  | cons k rest ih => rw [sweep, List.foldr_cons, hlength, length_touch]; exact ih

/-- The update that is made last decides on the user agent. -/
theorem userAgent_sweep {inner : Nat → Option (Option String)}
    (hinner : ∀ k y, y.marks.length = n → (during k y).settings.userAgent = (inner k).getD y.settings.userAgent)
    {x : Guise} (hn : x.marks.length = n) (ks : List Nat) :
    (x.sweep agent during ks).settings.userAgent = (ks.findSome? inner).getD x.settings.userAgent := by
  induction ks with
  | nil => rfl
  | cons k rest ih =>
    have hrest : ((x.sweep agent during rest).touch agent k).marks.length = n := by
      rw [length_touch, length_sweep hlength, hn]
    change (during k ((x.sweep agent during rest).touch agent k)).settings.userAgent = _
    rw [hinner k _ hrest, settings_touch, ih, List.findSome?_cons]
    cases inner k <;> rfl

/-- A mark is decided by the update that is made last when the entry has been passed, or else by the
sweep itself. -/
theorem mark_sweep {i : Nat} {inner : Nat → Option Bool}
    (hinner : ∀ k y, y.marks.length = n → (during k y).marks[i]? = (inner k).or y.marks[i]?)
    {x : Guise} (hn : x.marks.length = n) (hi : i < n) {ks : List Nat} (hsorted : ks.Pairwise (· > ·))
    (hmem : i + 1 ∈ ks) :
    (x.sweep agent during ks).marks[i]? = some (((ks.filter (i < ·)).findSome? inner).getD agent.isSome) := by
  induction ks with
  | nil => cases hmem
  | cons k rest ih =>
    obtain ⟨hbefore, hsorted⟩ := List.pairwise_cons.1 hsorted
    have hrest : ((x.sweep agent during rest).touch agent k).marks.length = n := by
      rw [length_touch, length_sweep hlength, hn]
    change (during k ((x.sweep agent during rest).touch agent k)).marks[i]? = _
    rw [hinner k _ hrest]
    by_cases hk : k = i + 1
    · -- the sweep marks the entry here, and all places before this one are forgotten
      have hearlier : rest.filter (i < ·) = [] := by
        refine List.filter_eq_nil_iff.2 fun l hl => ?_
        have hlt := hbefore l hl
        simp only [decide_eq_true_eq]
        omega
      have hmarked : ((x.sweep agent during rest).touch agent k).marks[i]? = some agent.isSome := by
        rw [hk, length_touch] at hrest
        rw [hk]
        exact List.getElem?_set_self (hrest.symm ▸ hi)
      rw [List.filter_cons_of_pos (by simp [hk]), hearlier, hmarked, List.findSome?_cons, List.findSome?_nil]
      cases inner k <;> rfl
    · have hmem : i + 1 ∈ rest := (List.mem_cons.1 hmem).resolve_left (Ne.symm hk)
      have hlt := hbefore _ hmem
      have hkept : ((x.sweep agent during rest).touch agent k).marks[i]? = (x.sweep agent during rest).marks[i]? := by
        cases k with
        | zero => rfl
        | succ l => exact List.getElem?_set_ne (by omega)
      rw [List.filter_cons_of_pos (by simp; omega), hkept, ih hsorted hmem, List.findSome?_cons]
      cases inner k <;> rfl

end Sweep

/-- A sweep gives the user agent first, and its marks leave it as it is. -/
theorem current_sweep {agent : Option String} {during : Nat → Guise → Guise}
    (hduring : ∀ k y, y.Current → (during k y).Current) {x : Guise} (n : Nat)
    (hagent : x.settings.userAgent = agent) : (x.sweep agent during (places agent n)).Current := by
  have hmarks : ∀ {y : Guise} (ks : List Nat), y.Current →
      (y.sweep agent during (ks.map (· + 1))).Current := by
    intro y ks hy
    induction ks with
    | nil => exact hy
    | cons k rest ih => exact hduring (k + 1) _ ih
  rw [places, sweep, List.foldr_append, ← List.map_reverse]
  refine hmarks _ ?_
  cases agent with
  | none =>
    intro a ha
    cases hagent.symm.trans ha
  | some a =>
    exact hduring 0 _ fun b hb => hagent.symm.trans hb

end Guise

namespace Plan

variable {edit : Edit} {during : Nat → Plan} {next : Plan}

theorem play_step_of_none (h : edit.agent? = none) (x : Guise) :
    (step edit during next).play x = next.play { x with settings := edit.apply x.settings } := by
  rw [play, h]

theorem play_step_of_some {agent : Option String} (h : edit.agent? = some agent) (x : Guise) :
    (step edit during next).play x =
      next.play (Guise.sweep { x with settings := edit.apply x.settings } agent (fun k => (during k).play)
        (places agent x.marks.length)) := by
  rw [play, h]

theorem length_play (plan : Plan) (x : Guise) : (plan.play x).marks.length = x.marks.length := by
  induction plan generalizing x with
  | done => rfl
  | step edit during next ihduring ihnext =>
    cases hagent : edit.agent? with
    | none => rw [play_step_of_none hagent, ihnext]
    | some agent => rw [play_step_of_some hagent, ihnext, Guise.length_sweep ihduring]

theorem userAgent_play (plan : Plan) {n : Nat} {x : Guise} (hn : x.marks.length = n) :
    (plan.play x).settings.userAgent = (plan.agent? n).getD x.settings.userAgent := by
  induction plan generalizing x with
  | done => rfl
  | step edit during next ihduring ihnext =>
    rw [agent?]
    cases hagent : edit.agent? with
    | none =>
      rw [play_step_of_none hagent, ihnext (by exact hn), Edit.userAgent_apply_of_none hagent,
        Option.map_none, Option.or_none]
    | some agent =>
      have hlength := fun k => (during k).length_play
      have hswept : (Guise.sweep { x with settings := edit.apply x.settings } agent
          (fun k => (during k).play) (places agent n)).marks.length = n :=
        (Guise.length_sweep hlength _ _).trans hn
      rw [play_step_of_some hagent, hn, ihnext hswept,
        Guise.userAgent_sweep hlength (fun k y hy => ihduring k hy) (by exact hn), Edit.userAgent_apply hagent,
        Option.map_some]
      cases next.agent? n <;> rfl

theorem mark_play (plan : Plan) {n i : Nat} {x : Guise} (hn : x.marks.length = n) (hi : i < n) :
    (plan.play x).marks[i]? = (plan.mark? n i).or x.marks[i]? := by
  induction plan generalizing x with
  | done => rfl
  | step edit during next ihduring ihnext =>
    rw [mark?]
    cases hagent : edit.agent? with
    | none => rw [play_step_of_none hagent, ihnext (by exact hn), Option.map_none, Option.or_none]
    | some agent =>
      have hlength := fun k => (during k).length_play
      have hswept : (Guise.sweep { x with settings := edit.apply x.settings } agent
          (fun k => (during k).play) (places agent n)).marks.length = n :=
        (Guise.length_sweep hlength _ _).trans hn
      rw [play_step_of_some hagent, hn, ihnext hswept,
        Guise.mark_sweep hlength (fun k y hy => ihduring k hy) (by exact hn) hi (pairwise_places agent n)
          (mem_places hi), Option.map_some]
      cases next.mark? n i <;> rfl

theorem current_step_of_some {agent : Option String} (hagent : edit.agent? = some agent)
    (hduring : ∀ k y, y.Current → ((during k).play y).Current)
    (hnext : ∀ y, y.Current → (next.play y).Current) (x : Guise) :
    ((step edit during next).play x).Current := by
  rw [play_step_of_some hagent]
  exact hnext _ (Guise.current_sweep hduring _ (Edit.userAgent_apply hagent _))

theorem current_store {x : Guise} (hx : x.Current) (hagent : edit.agent? = none) :
    Guise.Current { x with settings := edit.apply x.settings } := by
  intro agent ha
  rw [Edit.userAgent_apply_of_none hagent] at ha
  exact hx agent ha

theorem current_play (plan : Plan) {x : Guise} (hx : x.Current) : (plan.play x).Current := by
  induction plan generalizing x with
  | done => exact hx
  | step edit during next ihduring ihnext =>
    cases hagent : edit.agent? with
    | none =>
      rw [play_step_of_none hagent]
      exact ihnext (current_store hx hagent)
    | some agent => exact current_step_of_some hagent (fun k _ => ihduring k) (fun _ => ihnext) x

/-- Once an update has been made, and wherever others are made inside it, what is given is what the
host has. -/
theorem current_play_of_agent? (plan : Plan) {n : Nat} (h : plan.agent? n ≠ none) (x : Guise) :
    (plan.play x).Current := by
  induction plan generalizing x with
  | done => exact absurd rfl h
  | step edit during next _ ihnext =>
    cases hagent : edit.agent? with
    | none =>
      rw [play_step_of_none hagent]
      refine ihnext ?_ _
      rwa [agent?, hagent, Option.map_none, Option.or_none] at h
    | some agent =>
      exact current_step_of_some hagent (fun k _ => (during k).current_play) (fun _ => next.current_play) x

theorem isSome_mark? (plan : Plan) (n i : Nat) : (plan.mark? n i).isSome = (plan.agent? n).isSome := by
  induction plan with
  | done => rfl
  | step edit during next _ ihnext =>
    rw [mark?, agent?, Option.isSome_or, Option.isSome_or, ihnext, Option.isSome_map, Option.isSome_map]

/-- In a steady plan all entries are given the same mark, the right one for the user agent that is
stored last. -/
theorem Steady.mark?_eq {plan : Plan} {n : Nat} (h : plan.Steady n) (i : Nat) :
    plan.mark? n i = (plan.agent? n).map Option.isSome := by
  induction plan with
  | done => rfl
  | step edit during next ihduring ihnext =>
    obtain ⟨hinner, hnext⟩ := h
    rw [mark?, agent?, ihnext hnext]
    cases next.agent? n with
    | some later => rfl
    | none =>
      cases hagent : edit.agent? with
      | none => rfl
      | some agent =>
        have hkept := hinner agent hagent
        have hmark : ∀ m, (((places agent n).filter (i < ·)).findSome? fun k => (during k).mark? n i) = some m →
            m = agent.isSome := by
          intro m hm
          obtain ⟨k, hk, hm⟩ := List.exists_of_findSome?_eq_some hm
          have hk := (List.mem_filter.1 hk).1
          rw [ihduring k (hkept k hk).1, Option.map_eq_some_iff] at hm
          obtain ⟨inner, hinner, rfl⟩ := hm
          exact (hkept k hk).2 inner hinner
        have hlast : ∀ inner, ((places agent n).findSome? fun k => (during k).agent? n) = some inner →
            inner.isSome = agent.isSome := by
          intro inner h
          obtain ⟨k, hk, h⟩ := List.exists_of_findSome?_eq_some h
          exact (hkept k hk).2 inner h
        rw [Option.map_some, Option.map_some, Option.map_none, Option.none_or, Option.none_or, Option.map_some,
          Option.some_inj]
        calc _ = agent.isSome := by
              cases hm : ((places agent n).filter (i < ·)).findSome? fun k => (during k).mark? n i with
              | none => rfl
              | some m => exact hmark m hm
          _ = _ := by
              cases h : (places agent n).findSome? fun k => (during k).agent? n with
              | none => rfl
              | some inner => exact (hlast inner h).symm

theorem marks_play (plan : Plan) {n : Nat} {x : Guise} {mark : Bool} (hmarks : x.marks = List.replicate n mark) :
    (plan.play x).marks = (List.range n).map fun i => (plan.mark? n i).getD mark := by
  have hn : x.marks.length = n := by rw [hmarks, List.length_replicate]
  refine List.ext_getElem? fun i => ?_
  by_cases hi : i < n
  · rw [plan.mark_play hn hi, hmarks, List.getElem?_replicate_of_lt hi, List.getElem?_map, List.getElem?_range hi,
      Option.map_some]
    cases plan.mark? n i <;> rfl
  · have hlength : (plan.play x).marks.length = n := (plan.length_play x).trans hn
    rw [List.getElem?_eq_none (by omega), List.getElem?_eq_none (by simp; omega)]

/-- If all marks were right before, they are afterwards if and only if the last mark of each entry is the
one for the user agent that is stored last. -/
theorem marks_right_iff (plan : Plan) (n : Nat) (agent : Option String) :
    (List.range n).map (fun i => (plan.mark? n i).getD agent.isSome) =
        List.replicate n ((plan.agent? n).getD agent).isSome ↔
      ∀ i < n, plan.mark? n i = (plan.agent? n).map Option.isSome := by
  simp only [List.eq_replicate_iff, List.length_map, List.length_range, List.mem_map, List.mem_range, true_and,
    forall_exists_index, and_imp, forall_apply_eq_imp_iff₂]
  refine forall₂_congr fun i _ => ?_
  have hboth := plan.isSome_mark? n i
  cases hlast : plan.agent? n with
  | none =>
    rw [hlast, Option.isSome_none, Option.isSome_eq_false_iff, Option.isNone_iff_eq_none] at hboth
    simp [hboth]
  | some last =>
    rw [hlast, Option.isSome_some, Option.isSome_iff_exists] at hboth
    obtain ⟨mark, hmark⟩ := hboth
    simp [hmark]

end Plan

end SettingsRelay
