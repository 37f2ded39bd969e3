import SettingsRelay.Proofs.Application
import SettingsRelay.Proofs.Plan
import SettingsRelay.Proofs.Push

/-!
# Updates inside updates

A host in memory is edited, and edited again whenever its session is called for the user agent. What this does
to host and session is what the plan of the edits does to a guise. So the user agent that the session was given
last is the one of the host, but the marks of its entries need not be: an update that was interrupted goes on
with the user agent that it has read before.

An entry has the mark that it was given last: by an update made after the entry was passed, or else by the one
that passed it, whatever has been stored by then. All marks are right when no update inside another turns a user
agent on or off.
-/

namespace SettingsRelay

variable {σ : Type}

/-- The objects between which a user agent is carried: a host, its bridge, the session of the bridge and
the one that receives what is asked of it. -/
structure Ties where
  host : HostRef
  bridge : BridgeRef
  session : SessionRef
  receiver : SessionRef

namespace Ties

/-- Between these objects, which the embedder keeps alive, there is the guise `x`. -/
structure Shows (t : Ties) (x : Guise) (w : World σ) : Prop where
  attached : w.hosts t.host = .memory x.settings (some t.bridge)
  host : (w.bridges t.bridge).host = t.host
  session : (w.bridges t.bridge).session = t.session
  receiver : w.receiver t.session = t.receiver
  given : (w.sessions t.receiver).userAgent = x.given
  marks : (w.sessions t.receiver).entries = x.marks
  kept : ∀ o, o = t.host.object ∨ o = t.bridge.object ∨ o = t.session.object → ⟨.embedder, o⟩ ∈ w.shares

variable {t : Ties} {x : Guise} {w v : World σ}

namespace Shows

theorem alive (hw : t.Shows x w) {o : Object}
    (ho : o = t.host.object ∨ o = t.bridge.object ∨ o = t.session.object) : w.isAlive o = true :=
  World.isAlive_iff.2 ⟨.embedder, hw.kept o ho⟩

theorem host_alive (hw : t.Shows x w) : w.isAlive (w.bridges t.bridge).host.object = true := by
  rw [hw.host]
  exact hw.alive (.inl rfl)

theorem session_alive (hw : t.Shows x w) : w.isAlive (w.bridges t.bridge).session.object = true := by
  rw [hw.session]
  exact hw.alive (.inr (.inr rfl))

/-! ### What makes no difference -/

theorem elsewhere (hw : t.Shows x w) (hhosts : v.hosts = w.hosts) (hbridges : v.bridges = w.bridges)
    (hsessions : v.sessions = w.sessions)
    (hshares : ∀ o, ⟨.embedder, o⟩ ∈ w.shares → ⟨.embedder, o⟩ ∈ v.shares) : t.Shows x v where
  attached := by
    rw [hhosts]
    exact hw.attached
  host := by
    rw [hbridges]
    exact hw.host
  session := by
    rw [hbridges]
    exact hw.session
  receiver := by
    rw [World.receiver, hsessions]
    exact hw.receiver
  given := by
    rw [hsessions]
    exact hw.given
  marks := by
    rw [hsessions]
    exact hw.marks
  kept o ho := hshares o (hw.kept o ho)

theorem leased (hw : t.Shows x w) (l : Lease) : t.Shows x (w.leased l) :=
  hw.elsewhere rfl rfl rfl fun _ hs => hs

theorem consulted (hw : t.Shows x w) (h : HostRef) : t.Shows x (w.consulted h) := by
  unfold World.consulted
  split
  · exact hw.leased _
  · exact hw

theorem acquire (hw : t.Shows x w) (o : Object) : t.Shows x (w.acquire .call o) :=
  hw.elsewhere rfl rfl rfl fun _ hs => List.mem_cons_of_mem _ hs

theorem withdraw (hw : t.Shows x w) (o : Object) : t.Shows x (w.withdraw .call o) :=
  hw.elsewhere rfl rfl rfl fun _ hs => (List.mem_erase_of_ne (by simp)).2 hs

theorem letGo (hw : t.Shows x w) (o : Object) : t.Shows x (w.releaseQuietly .call o) := by
  have hsheds := World.sheds_releaseQuietly w .call o
  refine hw.elsewhere ?_ ?_ ?_ fun _ hs => hsheds.kept_of_holder hs (by simp) (by simp) <;> rw [hsheds.same]

/-! ### What makes a difference -/

theorem stored (hw : t.Shows x w) (f : Settings → Settings) :
    t.Shows { x with settings := f x.settings } (w.stored t.host f) where
  attached := by
    rw [World.hosts_stored, hw.attached]
    rfl
  host := hw.host
  session := hw.session
  receiver := hw.receiver
  given := hw.given
  marks := hw.marks
  kept := hw.kept

theorem changeSession (hw : t.Shows x w) {f : Session → Session}
    (hf : ∀ session, (f session).behind = session.behind) :
    t.Shows
      { x with
        given := (f (w.sessions t.receiver)).userAgent
        marks := (f (w.sessions t.receiver)).entries }
      (w.changeSession t.receiver f) where
  attached := hw.attached
  host := hw.host
  session := hw.session
  receiver := by
    have hbehind : ((w.changeSession t.receiver f).sessions t.session).behind = (w.sessions t.session).behind := by
      by_cases ht : t.session = t.receiver
      · rw [ht]
        exact (congrArg Session.behind (replaceAt_self _ _ _)).trans (hf _)
      · exact congrArg Session.behind (replaceAt_of_ne ht)
    rw [World.receiver, hbehind]
    exact hw.receiver
  given := congrArg Session.userAgent (replaceAt_self _ _ _)
  marks := congrArg Session.entries (replaceAt_self _ _ _)
  kept := hw.kept

end Shows

/-- An operation, with these reactions to its calls, turns a guise that there is between the objects. -/
def Turns (t : Ties) (react : Reaction σ) (op : Op σ Unit) (turn : Guise → Guise) : Prop :=
  ∀ ⦃x w⦄, t.Shows x w → t.Shows (turn x) (op.outcome react w).2

namespace Turns

variable {react : Reaction σ}

theorem bind {op next : Op σ Unit} {f g : Guise → Guise} (hop : t.Turns react op f)
    (hnext : t.Turns react next g) : t.Turns react (do op; next) fun x => g (f x) :=
  fun _ _ hw => hnext (hop hw)

theorem withHost {body : HostRef → Op σ Unit} {f : Guise → Guise} (hbody : t.Turns react (body t.host) f) :
    t.Turns react (Bridge.withHost t.bridge body) f := by
  intro x w hw
  rw [Bridge.outcome_withHost react body hw.host_alive, hw.host]
  exact (hbody (hw.acquire t.host.object)).letGo t.host.object

theorem withSession {body : SessionRef → Op σ Unit} {f : Guise → Guise}
    (hbody : t.Turns react (body t.session) f) : t.Turns react (Bridge.withSession t.bridge body) f := by
  intro x w hw
  rw [Bridge.outcome_withSession react body hw.session_alive, hw.session]
  exact (hbody (hw.acquire t.session.object)).letGo t.session.object

theorem pushFormData : t.Turns react (Bridge.pushFormData t.bridge t.host) id := by
  intro x w hw
  rw [Bridge.pushFormData, Op.outcome_get_bind]
  dsimp only
  rw [if_pos hw.session_alive]
  cases (w.sessions (w.bridges t.bridge).session).client with
  | none => exact hw
  | some c =>
    dsimp only
    rw [Op.outcome_bind, Op.outcome_readHost]
    exact (hw.consulted _).elsewhere rfl rfl rfl fun _ hs => hs

end Turns

end Ties

/-! ## Calls that are answered by more edits -/

def Call.place? : Call → Option Nat
  | userAgent _ _ => some 0
  | entry _ i _ => some (i + 1)
  | _ => none

/-- The same reaction, but followed by something else at each place where a user agent is carried. -/
def Reaction.followed (react : Reaction σ) (during : Nat → World σ → World σ) : Reaction σ := fun c w =>
  match c.place? with
  | some k => during k (react c w)
  | none => react c w

def Guise.carried (during : Nat → Guise → Guise) (x : Guise) : Guise :=
  x.sweep x.settings.userAgent during (places x.settings.userAgent x.marks.length)

def Plan.run (react : Reaction σ) (h : HostRef) : Plan → World σ → World σ
  | done, w => w
  | step edit during next, w =>
    next.run react h ((edit.perform h).outcome (react.followed fun k => (during k).run react h) w).2

namespace Ties

section Carrying

variable {t : Ties} {react : Reaction σ} (hreact : ∀ c x w, t.Shows x w → t.Shows x (react c w))
  {run : Nat → World σ → World σ} {play : Nat → Guise → Guise}
  (hrun : ∀ k x w, t.Shows x w → t.Shows (play k x) (run k w))

namespace Turns

include hreact

theorem call {c : Call} (hc : c.place? = none) : t.Turns (react.followed run) (Op.call c) id := by
  intro x w hw
  rw [Op.outcome_call, Reaction.followed, hc]
  exact hreact c x w hw

theorem pushPageScale : t.Turns (react.followed run) (Bridge.pushPageScale t.bridge t.host) id := by
  intro x w hw
  rw [Bridge.pushPageScale, Op.outcome_get_bind]
  cases Bridge.extension? w t.bridge with
  | none => exact hw
  | some s =>
    dsimp only
    rw [Op.outcome_bind, Op.outcome_readHost]
    exact call hreact rfl (hw.consulted _)

theorem pushPreferences : t.Turns (react.followed run) (Bridge.pushPreferences t.bridge) id := by
  refine withSession fun x w hw => ?_
  rw [Op.outcome_get_bind]
  dsimp only
  rw [Op.outcome_ite]
  split
  · exact call hreact rfl hw
  · exact hw

theorem pushAcceptLanguages : t.Turns (react.followed run) (Bridge.pushAcceptLanguages t.bridge t.host) id := by
  intro x w hw
  cases hservice : (w.contexts (w.bridges t.bridge).context).service with
  | none =>
    rw [Bridge.outcome_pushAcceptLanguages_none _ t.host hservice]
    exact hw
  | some p =>
    have hstored : t.Shows x (((w.acquire .call p.object).consulted t.host).changeService p
        (·.put acceptLanguagesKey (w.hosts t.host).acceptLanguages)) :=
      ((hw.acquire p.object).consulted t.host).elsewhere rfl rfl rfl fun _ hs => hs
    rw [Bridge.outcome_pushAcceptLanguages _ t.host hservice]
    have hcall : t.Turns (react.followed run)
        (Op.call (.stored p acceptLanguagesKey (w.hosts t.host).acceptLanguages)) id := call hreact rfl
    exact (hcall hstored).letGo p.object

theorem updatePreferences : t.Turns (react.followed run) (Bridge.updatePreferences t.bridge) id := by
  intro x w hw
  rw [Bridge.updatePreferences, Bridge.ifHosted, Op.outcome_get_bind, Op.outcome_get_bind, if_pos hw.host_alive]
  exact pushPreferences hreact hw

include hrun

theorem callAt {c : Call} {k : Nat} (hc : c.place? = some k) :
    t.Turns (react.followed run) (Op.call c) (play k) := by
  intro x w hw
  rw [Op.outcome_call, Reaction.followed, hc]
  exact hrun k x _ (hreact c x w hw)

theorem overrideUserAgent (agent : String) :
    t.Turns (react.followed run) (Session.overrideUserAgent t.receiver agent) fun x =>
      play 0 (x.touch (some agent) 0) := by
  intro x w hw
  have hgiven := hw.changeSession (f := fun session => { session with userAgent := some agent }) fun _ => rfl
  rw [hw.marks] at hgiven
  exact callAt hreact hrun rfl hgiven

theorem markEntry (agent : Option String) (i : Nat) :
    t.Turns (react.followed run) (Session.markEntry t.receiver i agent.isSome) fun x =>
      play (i + 1) (x.touch agent (i + 1)) := by
  intro x w hw
  have hmarked := hw.changeSession
    (f := fun session => { session with entries := session.entries.set i agent.isSome }) fun _ => rfl
  rw [hw.given, hw.marks] at hmarked
  exact callAt hreact hrun rfl hmarked

theorem markEntries (agent : Option String) (indices : List Nat) :
    t.Turns (react.followed run) (Session.markEntries t.receiver agent.isSome indices) fun x =>
      x.sweep agent play (indices.map (· + 1)).reverse := by
  induction indices with
  | nil => exact fun _ _ hw => hw
  | cons i rest ih =>
    intro x w hw
    have hrest := ih (markEntry hreact hrun agent i hw)
    dsimp only
    rwa [List.map_cons, List.reverse_cons, Guise.sweep, List.foldr_append]

/-- The user agent of the host is given to the session, and all entries are marked for it, whatever
the host has by then. -/
theorem pushUserAgent (hlength : ∀ k x, (play k x).marks.length = x.marks.length) :
    t.Turns (react.followed run) (Bridge.pushUserAgent t.bridge t.host) (Guise.carried play) := by
  refine withSession fun x w hw => ?_
  have hread := hw.consulted t.host
  have hagent : (w.hosts t.host).userAgent = x.settings.userAgent := by
    rw [hw.attached]
    rfl
  have hall : ∀ {y u}, t.Shows y u → y.marks.length = x.marks.length →
      t.Shows (y.sweep x.settings.userAgent play ((List.range x.marks.length).map (· + 1)).reverse)
        ((do
          let count := ((← get).sessions t.receiver).entries.length
          Session.markEntries t.receiver x.settings.userAgent.isSome (List.range count) : Op σ Unit).outcome
            (react.followed run) u).2 := by
    intro y u hu hlen
    rw [Op.outcome_get_bind, hu.marks, hlen]
    exact markEntries hreact hrun _ _ hu
  rw [Op.outcome_get_bind, Op.outcome_bind, Op.outcome_readHost, hw.receiver, hagent, Guise.carried]
  cases h : x.settings.userAgent with
  | none =>
    rw [h] at hall
    rw [places, Option.isSome_none, if_neg Bool.false_ne_true, List.append_nil]
    exact hall hread rfl
  | some agent =>
    rw [h] at hall
    rw [places, Option.isSome_some, if_pos rfl, Guise.sweep, List.foldr_append]
    exact hall (overrideUserAgent hreact hrun agent hread)
      ((hlength _ _).trans (Guise.length_touch _ _ _))

theorem updateEverything (hlength : ∀ k x, (play k x).marks.length = x.marks.length) :
    t.Turns (react.followed run) (Bridge.updateEverything t.bridge) (Guise.carried play) :=
  withHost ((pushPageScale hreact).bind ((pushPreferences hreact).bind
    ((pushUserAgent hreact hrun hlength).bind pushFormData)))

theorem update (hlength : ∀ k x, (play k x).marks.length = x.marks.length) (channel : Channel) :
    t.Turns (react.followed run) (Bridge.update channel t.bridge)
      fun x => if channel.carriesAgent then x.carried play else x := by
  cases channel with
  | preferences => exact updatePreferences hreact
  | userAgent => exact withHost (pushUserAgent hreact hrun hlength)
  | pageScale => exact withHost (pushPageScale hreact)
  | formData => exact withHost pushFormData
  | acceptLanguages => exact withHost (pushAcceptLanguages hreact)
  | everything => exact updateEverything hreact hrun hlength

end Turns

namespace Shows

variable {x : Guise} {w : World σ}

include hreact hrun

theorem update (hw : t.Shows x w) (hlength : ∀ k x, (play k x).marks.length = x.marks.length)
    (channel : Channel) (f : Settings → Settings) :
    t.Shows
      (if channel.carriesAgent then Guise.carried play { x with settings := f x.settings }
        else { x with settings := f x.settings })
      ((Host.update t.host channel f).outcome (react.followed run) w).2 := by
  have hattached : (w.hosts t.host).attached = some t.bridge := by
    rw [hw.attached]
    rfl
  have hcarried := Turns.update hreact hrun hlength channel
    (((hw.stored f).leased ⟨.hostAttached t.host, false⟩).acquire t.bridge.object)
  have hreleased := hcarried.withdraw t.bridge.object
  rw [Host.outcome_update _ channel f hattached (hw.alive (.inr (.inl rfl))), Op.outcome_bind,
    Op.outcome_release_bridge _ (hreleased.alive (.inr (.inl rfl)))]
  exact hreleased

/-- What one edit does to a guise, whatever is done in the calls that it makes. -/
theorem perform (hw : t.Shows x w) (hlength : ∀ k x, (play k x).marks.length = x.marks.length) (edit : Edit) :
    t.Shows
      (if edit.agent?.isSome then Guise.carried play { x with settings := edit.apply x.settings }
        else { x with settings := edit.apply x.settings })
      ((edit.perform t.host).outcome (react.followed run) w).2 := by
  rw [Edit.outcome_perform, Edit.apply]
  cases htaken : edit.isTaken with
  | false =>
    rw [Edit.agent?_of_not_taken htaken]
    exact hw
  | true =>
    have hupdated := hw.update hreact hrun hlength edit.channel edit.store
    rw [Edit.agent?_of_taken htaken x.settings]
    cases hcarries : edit.channel.carriesAgent <;> rw [hcarries] at hupdated <;> exact hupdated

end Shows

end Carrying

end Ties

namespace Plan

variable {t : Ties} {react : Reaction σ} {x : Guise} {w : World σ}

/-- What the edits of a plan do between a host and its session is what the plan does to their guise. -/
theorem shows_run (hreact : ∀ c x w, t.Shows x w → t.Shows x (react c w)) (plan : Plan) (hw : t.Shows x w) :
    t.Shows (plan.play x) (plan.run react t.host w) := by
  induction plan generalizing x w with
  | done => exact hw
  | step edit during next ihduring ihnext =>
    have hperformed := hw.perform hreact (fun k _ _ => ihduring k)
      (fun k => (during k).length_play) edit
    cases hagent : edit.agent? with
    | none =>
      rw [hagent] at hperformed
      rw [play_step_of_none hagent]
      exact ihnext hperformed
    | some agent =>
      rw [hagent, Guise.carried, Edit.userAgent_apply hagent] at hperformed
      rw [play_step_of_some hagent]
      exact ihnext hperformed

/-- Whichever updates are made in the calls of others, host and session have the user agent that was stored last, if
it is one. All marks are right if and only if the last mark of each entry is the one for it. -/
theorem nested_updates_settle (hreact : ∀ c x w, t.Shows x w → t.Shows x (react c w)) (hw : t.Shows x w) {n : Nat}
    (hmarks : x.marks = List.replicate n x.settings.userAgent.isSome) (plan : Plan) :
    let v := plan.run react t.host w
    let agent := (plan.agent? n).getD x.settings.userAgent
    (v.hosts t.host).userAgent = agent ∧
    (plan.agent? n ≠ none → ∀ a, agent = some a → (v.sessions t.receiver).userAgent = some a) ∧
    (v.sessions t.receiver).entries =
      (List.range n).map (fun i => (plan.mark? n i).getD x.settings.userAgent.isSome) ∧
    ((v.sessions t.receiver).entries = List.replicate n agent.isSome ↔
      ∀ i < n, plan.mark? n i = (plan.agent? n).map Option.isSome) ∧
    (plan.Steady n → (v.sessions t.receiver).entries = List.replicate n agent.isSome) := by
  intro v agent
  have hv := plan.shows_run hreact hw
  have hn : x.marks.length = n := by rw [hmarks, List.length_replicate]
  have hhost : (v.hosts t.host).userAgent = agent := by
    rw [hv.attached]
    exact plan.userAgent_play hn
  have hentries : (v.sessions t.receiver).entries =
      (List.range n).map fun i => (plan.mark? n i).getD x.settings.userAgent.isSome := by
    rw [hv.marks, plan.marks_play hmarks]
  have hright : (v.sessions t.receiver).entries = List.replicate n agent.isSome ↔
      ∀ i < n, plan.mark? n i = (plan.agent? n).map Option.isSome := by
    rw [hentries]
    exact plan.marks_right_iff n x.settings.userAgent
  refine ⟨hhost, fun hagent a ha => ?_, hentries, hright, fun hsteady => hright.2 fun i _ => hsteady.mark?_eq i⟩
  rw [hv.given]
  exact plan.current_play_of_agent? hagent x a ((plan.userAgent_play hn).trans ha)

def interrupted (outer inner : Option String) : Plan :=
  step (.set (.userAgent outer))
    (fun k => if k = 0 then step (.set (.userAgent inner)) (fun _ => done) done else done) done

/-- When the user agent is taken away again in the call for it, the host has none but the entry stays
marked, since the outer update goes on. When it is replaced by another one, the session is left with that. -/
theorem interrupted_update_goes_on : ∃ w : World Diary, w.Reached Diary.note [] ∧
    (let v := (interrupted (some "a") none).run (fun _ u => u) ⟨2⟩ w
     (v.hosts ⟨2⟩).userAgent = none ∧ (v.sessions ⟨1⟩).entries = [true]) ∧
    (let v := (interrupted (some "a") (some "b")).run (fun _ u => u) ⟨2⟩ w
     (v.hosts ⟨2⟩).userAgent = some "b" ∧ (v.sessions ⟨1⟩).userAgent = some "b" ∧
     (v.sessions ⟨1⟩).entries = [true]) := by
  let deeds : List Deed :=
    [.makeContext {} none, .makeSession { id := ⟨7⟩, entries := [false] }, .makeHost {},
      .makeBridge ⟨0⟩ ⟨1⟩ ⟨2⟩, .attach ⟨2⟩ ⟨3⟩]
  let w : World Diary := World.after Diary.note deeds { embedder := [] }
  have hw : w.Reached Diary.note [] := World.evolves_after Diary.note deeds (.still _)
  have hshows : Ties.Shows ⟨⟨2⟩, ⟨3⟩, ⟨1⟩, ⟨1⟩⟩ ⟨{}, none, [false]⟩ w := by
    refine ⟨by rfl, by rfl, by rfl, by decide +kernel, by rfl, by rfl, ?_⟩
    rintro o (rfl | rfl | rfl) <;> decide +kernel
  have hmarks : [false] = List.replicate 1 ({} : Settings).userAgent.isSome := by rfl
  clear_value w
  refine ⟨w, hw, ?_, ?_⟩
  · obtain ⟨hagent, _, hentries, _⟩ :=
      nested_updates_settle (fun _ _ _ h => h) hshows hmarks (interrupted (some "a") none)
    exact ⟨hagent.trans (by decide +kernel), hentries.trans (by decide +kernel)⟩
  · obtain ⟨hagent, hgiven, hentries, _⟩ :=
      nested_updates_settle (fun _ _ _ h => h) hshows hmarks (interrupted (some "a") (some "b"))
    exact ⟨hagent.trans (by decide +kernel), hgiven (by decide +kernel) "b" (by decide +kernel),
      hentries.trans (by decide +kernel)⟩

end Plan

end SettingsRelay
