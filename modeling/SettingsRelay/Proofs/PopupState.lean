import SettingsRelay.Proofs.Application

/-!
# The state of a popup

A client keeps three things about its popup, each stored before anybody is called: the suggestions it was given
last, the delegate it was given with them unless the popup was hidden since, and the view it was given last.
They are what a journal of the acts begun so far tells, also for acts in the middle of others.

Each act makes the one call that follows from them or none, as soon as it has begun, and no call comes from
anywhere else. To present suggestions or to hide the popup calls the view, if it is alive. To select a position
calls the delegate, if it is alive and there is a suggestion at the position.
-/

namespace SettingsRelay

variable {σ : Type}

namespace Popup

/-- What is done about the popup of a client, or to the views and delegates that the client only refers to. -/
inductive Act where
  | present (bounds : Rect) (direction : TextDirection) (suggestions : List Suggestion)
      (delegate : Option DelegateRef)
  | hide
  | select (position : Nat)
  | setView (v : ViewRef)
  | dropView (v : ViewRef)
  | dropDelegate (d : DelegateRef)
deriving DecidableEq

def Act.perform (k : ClientRef) : Act → Op σ Unit
  | present bounds direction suggestions delegate => Client.showPopup k bounds direction suggestions delegate
  | hide => Client.hidePopup k
  | select position => Client.select k position
  | setView v => Client.setView k v
  | dropView v => Op.release .embedder v.object
  | dropDelegate d => Op.release .embedder d.object

inductive Event where
  /-- An act begins. -/
  | begins (act : Act)
  /-- An act makes a call. -/
  | calls (c : Call)
deriving DecidableEq

/-- What has happened so far, the latest first, with the worlds that an act began or a call was made in. -/
abbrev Journal := List (Event × World Unit)

def enter (e : Event) (w : World Journal) : World Journal := { w with embedder := (e, w.bare) :: w.embedder }

/-! ## What a journal tells -/

namespace Journal

def suggestions : Journal → List Suggestion
  | [] => []
  | (.begins (.present _ _ suggestions _), _) :: _ => suggestions
  | _ :: past => suggestions past

/-- The delegate that came with the suggestions presented last, unless the popup was hidden since. -/
def delegate : Journal → Option DelegateRef
  | [] => none
  | (.begins (.present _ _ _ delegate), _) :: _ => delegate
  | (.begins .hide, _) :: _ => none
  | _ :: past => delegate past

def view : Journal → Option ViewRef
  | [] => none
  | (.begins (.setView v), _) :: _ => some v
  | _ :: past => view past

/-- The call that an act makes when it begins in a world. -/
def due (past : Journal) (w : World Unit) : Act → Option Call
  | .present bounds direction suggestions _ =>
    (w.living? past.view).map (.showPopup · bounds (direction = .rightToLeft) suggestions)
  | .hide => (w.living? past.view).map .hidePopup
  | .select position =>
    match w.living? past.delegate, past.suggestions[position]? with
    | some d, some s => some (.accept d s.value s.frontendId position)
    | _, _ => none
  | .setView _ | .dropView _ | .dropDelegate _ => none

/-- The call that is made before anything else happens, with what happens `later`. -/
def answer (later : Journal) : Option Call :=
  match later.getLast? with
  | some (.calls c, _) => some c
  | _ => none

structure Tells (past : Journal) (client : Client) : Prop where
  suggestions : client.suggestions = past.suggestions
  delegate : client.delegate = past.delegate
  view : client.view = past.view

/-- Whenever an act began the client was in the state told by what had happened before, and the act made the
call that was due, before anything else happened, or none if none was. -/
inductive IsFaithful (k : ClientRef) : Journal → Prop where
  | nil : IsFaithful k []
  | silent {past : Journal} {w : World Unit} {act : Act} (before : IsFaithful k past)
      (tells : past.Tells (w.clients k)) (due : past.due w act = none) :
      IsFaithful k ((.begins act, w) :: past)
  | calling {past : Journal} {w v : World Unit} {act : Act} {c : Call} (before : IsFaithful k past)
      (tells : past.Tells (w.clients k)) (due : past.due w act = some c)
      (tellsCalled : Tells ((.begins act, w) :: past) (v.clients k)) :
      IsFaithful k ((.calls c, v) :: (.begins act, w) :: past)

/-! ### Single entries -/

theorem answer_begins (act : Act) (w : World Unit) (later : Journal) :
    answer ((.begins act, w) :: later) = answer later := by
  cases later with
  | nil => rfl
  | cons x rest => rw [answer, List.getLast?_cons_cons, ← answer]

theorem answer_calls_begins (c : Call) (v : World Unit) (act : Act) (w : World Unit) (later : Journal) :
    answer ((.calls c, v) :: (.begins act, w) :: later) = answer later := by
  rw [answer, List.getLast?_cons_cons, ← answer, answer_begins]

namespace IsFaithful

variable {k : ClientRef} {journal later past : Journal} {w : World Unit}

/-- An act finds the client as told and is answered by the call that is due. -/
theorem begins {act : Act} (h : journal.IsFaithful k) (hentry : journal = later ++ (.begins act, w) :: past) :
    past.Tells (w.clients k) ∧ answer later = past.due w act := by
  induction h generalizing later with
  | nil => simp at hentry
  | silent before tells due ih =>
    rcases List.cons_eq_append_iff.1 hentry with ⟨rfl, heq⟩ | ⟨rest, rfl, hrest⟩
    · cases heq
      exact ⟨tells, due.symm⟩
    · rw [answer_begins]
      exact ih hrest
  | calling before tells due _ ih =>
    rcases List.cons_eq_append_iff.1 hentry with ⟨rfl, heq⟩ | ⟨rest, rfl, hrest⟩
    · cases heq
    · rcases List.cons_eq_append_iff.1 hrest with ⟨rfl, heq⟩ | ⟨others, rfl, hothers⟩
      · cases heq
        exact ⟨tells, due.symm⟩
      · rw [answer_calls_begins]
        exact ih hothers

/-- A call comes from an act that has just begun, to which it was due. -/
theorem calls {c : Call} (h : journal.IsFaithful k) (hentry : journal = later ++ (.calls c, w) :: past) :
    past.Tells (w.clients k) ∧
      ∃ act v earlier, past = (.begins act, v) :: earlier ∧ due earlier v act = some c := by
  induction h generalizing later with
  | nil => simp at hentry
  | silent before tells due ih =>
    rcases List.cons_eq_append_iff.1 hentry with ⟨rfl, heq⟩ | ⟨rest, rfl, hrest⟩
    · cases heq
    · exact ih hrest
  | calling before tells due tellsCalled ih =>
    rcases List.cons_eq_append_iff.1 hentry with ⟨rfl, heq⟩ | ⟨rest, rfl, hrest⟩
    · cases heq
      exact ⟨tellsCalled, _, _, _, rfl, due⟩
    · rcases List.cons_eq_append_iff.1 hrest with ⟨rfl, heq⟩ | ⟨others, rfl, hothers⟩
      · cases heq
      · exact ih hothers

end IsFaithful

end Journal

/-- The journal of a world is faithful and tells the state of the client. -/
structure Settled (k : ClientRef) (w : World Journal) : Prop where
  faithful : w.embedder.IsFaithful k
  tells : w.embedder.Tells (w.clients k)

/-- An act has begun, with a call due or none, and what it stores is stored. -/
structure Begun (k : ClientRef) (due : Option Call) (w : World Journal) : Prop where
  entry : ∃ (past : Journal) (v : World Unit) (act : Act), w.embedder = (.begins act, v) :: past ∧
    past.IsFaithful k ∧ past.Tells (v.clients k) ∧ past.due v act = due
  tells : w.embedder.Tells (w.clients k)

variable {k : ClientRef} {w v u : World Journal}

theorem Settled.congr (hw : Settled k w) (hsame : v.clients = w.clients ∧ v.embedder = w.embedder) :
    Settled k v := by
  refine ⟨?_, ?_⟩
  · rw [hsame.2]
    exact hw.faithful
  · rw [hsame.1, hsame.2]
    exact hw.tells

theorem Settled.letGo (hw : Settled k w) (holder : Holder) (o : Object) : Settled k (w.releaseQuietly holder o) := by
  rw [World.releaseQuietly_eq]
  exact hw.congr ⟨rfl, rfl⟩

theorem Settled.begun (hw : Settled k w) (act : Act) (hembedder : v.embedder = (.begins act, w.bare) :: w.embedder)
    (htells : v.embedder.Tells (v.clients k)) : Begun k (w.embedder.due w.bare act) v :=
  ⟨⟨w.embedder, w.bare, act, hembedder, hw.faithful, hw.tells, rfl⟩, htells⟩

theorem Begun.congr {due : Option Call} (h : Begun k due w) (hsame : v.clients = w.clients ∧ v.embedder = w.embedder) :
    Begun k due v := by
  refine ⟨?_, ?_⟩
  · rw [hsame.2]
    exact h.entry
  · rw [hsame.1, hsame.2]
    exact h.tells

theorem Begun.silent (h : Begun k none w) : Settled k w := by
  obtain ⟨past, v, act, hembedder, hfaithful, htells, hdue⟩ := h.entry
  refine ⟨?_, h.tells⟩
  rw [hembedder]
  exact .silent hfaithful htells hdue

theorem Begun.calling {c : Call} (h : Begun k (some c) w) : Settled k (enter (.calls c) w) := by
  obtain ⟨past, v, act, hembedder, hfaithful, htells, hdue⟩ := h.entry
  have htellsCalled : Journal.Tells ((.begins act, v) :: past) (w.clients k) := hembedder ▸ h.tells
  refine ⟨?_, ⟨h.tells.suggestions, h.tells.delegate, h.tells.view⟩⟩
  change Journal.IsFaithful k ((.calls c, w.bare) :: w.embedder)
  rw [hembedder]
  exact .calling hfaithful htells hdue htellsCalled

end Popup

/-! ## What a client does -/

namespace Client

variable (react : Reaction σ) (w : World σ) (k : ClientRef)

theorem outcome_withView (body : ViewRef → Op σ Unit) : (withView k body).outcome react w =
    match w.living? (w.clients k).view with
    | some v =>
      ((), ((body v).outcome react ((w.leased ⟨.clientView k, false⟩).acquire .call v.object)).2.releaseQuietly
        .call v.object)
    | none => ((), w.leased ⟨.clientView k, false⟩) := by
  rw [withView, Op.outcome_bind, Op.outcome_upgradeIn react w _ (fun w => (w.clients k).view) fun _ => rfl]
  cases w.living? (w.clients k).view <;> rfl

theorem outcome_storeDelegate (delegate : Option DelegateRef) :
    (Op.writeCell (.clientDelegate k) (·.changeClient k fun client => { client with delegate })).outcome react w =
      ((), (w.changeClient k fun client => { client with delegate }).leased ⟨.clientDelegate k, true⟩) :=
  Op.outcome_writeCell react w _ _ fun _ => rfl

theorem outcome_storeSuggestions (suggestions : List Suggestion) :
    (Op.writeCell (.clientSuggestions k)
      (·.changeClient k fun client => { client with suggestions })).outcome react w =
      ((), (w.changeClient k fun client => { client with suggestions }).leased ⟨.clientSuggestions k, true⟩) :=
  Op.outcome_writeCell react w _ _ fun _ => rfl

theorem outcome_select (position : Nat) : (select k position).outcome react w =
    match w.living? (w.clients k).delegate with
    | some d =>
      let held := ((w.leased ⟨.clientDelegate k, false⟩).acquire .call d.object).leased ⟨.clientSuggestions k, false⟩
      match (w.clients k).suggestions[position]? with
      | some s => ((), (react (.accept d s.value s.frontendId position) held).releaseQuietly .call d.object)
      | none => ((), held.releaseQuietly .call d.object)
    | none => ((), w.leased ⟨.clientDelegate k, false⟩) := by
  rw [select, Op.outcome_bind, Op.outcome_upgradeIn react w _ (fun w => (w.clients k).delegate) fun _ => rfl]
  cases w.living? (w.clients k).delegate with
  | none => rfl
  | some d =>
    dsimp only [Option.map_some, World.acquire?]
    rw [Op.outcome_bind, Op.outcome_readCell]
    have hread : (((w.leased ⟨.clientDelegate k, false⟩).acquire .call d.object).openLease
        ⟨.clientSuggestions k, false⟩).clients = w.clients := rfl
    dsimp only
    rw [hread]
    cases (w.clients k).suggestions[position]? <;> rfl

end Client

namespace Popup

variable {k : ClientRef} {w v u : World Journal} {react : Reaction Journal}

/-- What holds when a call has been entered and is kept by what happens during it. -/
def Answered (k : ClientRef) (react : Reaction Journal) : Prop :=
  ∀ c u, Settled k (enter (.calls c) u) → Settled k (react c u)

/-- The call that is due is made while the object that is called is kept alive. -/
theorem Begun.answered {c : Call} (h : Begun k (some c) w) (hreact : Answered k react)
    (hsame : v.clients = w.clients ∧ v.embedder = w.embedder) (o : Object) :
    Settled k ((react c v).releaseQuietly .call o) :=
  (hreact c v (h.congr hsame).calling).letGo .call o

theorem Settled.withView {f : ViewRef → Call} {due : Option Call} (hw : Begun k due w)
    (hdue : due = (w.living? w.embedder.view).map f) (hreact : Answered k react) :
    Settled k ((Client.withView k fun v => Op.call (f v)).outcome react w).2 := by
  rw [Client.outcome_withView, hw.tells.view]
  cases hview : w.living? w.embedder.view with
  | none =>
    rw [hdue, hview] at hw
    exact hw.silent.congr ⟨rfl, rfl⟩
  | some v =>
    rw [hdue, hview] at hw
    refine hw.answered hreact ?_ v.object
    exact ⟨rfl, rfl⟩

theorem Settled.select (hw : Settled k w) (hreact : Answered k react) (position : Nat) :
    Settled k ((Client.select k position).outcome react (enter (.begins (.select position)) w)).2 := by
  have hbegun : Begun k (w.embedder.due w.bare (.select position)) (enter (.begins (.select position)) w) :=
    hw.begun _ rfl ⟨hw.tells.suggestions, hw.tells.delegate, hw.tells.view⟩
  have hliving : (enter (.begins (.select position)) w).living? (w.clients k).delegate =
      w.bare.living? w.embedder.delegate := congrArg w.bare.living? hw.tells.delegate
  have hclients : (enter (.begins (.select position)) w).clients = w.clients := rfl
  rw [Client.outcome_select, hclients, hliving, hw.tells.suggestions]
  rw [Journal.due] at hbegun
  cases hd : w.bare.living? w.embedder.delegate with
  | none =>
    rw [hd] at hbegun
    exact hbegun.silent.congr ⟨rfl, rfl⟩
  | some d =>
    cases hs : w.embedder.suggestions[position]? with
    | none =>
      rw [hd, hs] at hbegun
      refine Settled.letGo (hbegun.silent.congr ?_) .call d.object
      exact ⟨rfl, rfl⟩
    | some s =>
      rw [hd, hs] at hbegun
      refine hbegun.answered hreact ?_ d.object
      exact ⟨rfl, rfl⟩

/-- Every act is made of what it stores and the call that is due. -/
theorem Settled.perform (hw : Settled k w) (hreact : Answered k react) (act : Act) :
    Settled k ((act.perform k).outcome react (enter (.begins act) w)).2 := by
  obtain ⟨hsuggestions, hdelegate, hview⟩ := hw.tells
  cases act with
  | present bounds direction suggestions delegate =>
    rw [Act.perform, Client.showPopup, Op.outcome_bind, Client.outcome_storeSuggestions, Op.outcome_bind,
      Client.outcome_storeDelegate]
    refine Settled.withView (hw.begun (.present bounds direction suggestions delegate) rfl ?_) rfl hreact
    constructor <;> simp [World.changeClient, World.leased, enter, Journal.suggestions, Journal.delegate,
      Journal.view, hview]
  | hide =>
    rw [Act.perform, Client.hidePopup, Op.outcome_bind, Client.outcome_storeDelegate]
    refine Settled.withView (hw.begun .hide rfl ?_) rfl hreact
    constructor <;> simp [World.changeClient, World.leased, enter, Journal.suggestions, Journal.delegate,
      Journal.view, hsuggestions, hview]
  | select position => exact hw.select hreact position
  | setView v =>
    rw [Act.perform, Client.setView, Op.outcome_writeCell _ _ _ _ fun _ => rfl]
    refine (hw.begun (.setView v) rfl ?_).silent
    constructor <;> simp [World.changeClient, World.leased, enter, Journal.suggestions, Journal.delegate,
      Journal.view, hsuggestions, hdelegate]
  | dropView v =>
    have hbegun : Begun k none (enter (.begins (.dropView v)) w) :=
      hw.begun (.dropView v) rfl ⟨hsuggestions, hdelegate, hview⟩
    exact hbegun.silent.letGo .embedder v.object
  | dropDelegate d =>
    have hbegun : Begun k none (enter (.begins (.dropDelegate d)) w) :=
      hw.begun (.dropDelegate d) rfl ⟨hsuggestions, hdelegate, hview⟩
    exact hbegun.silent.letGo .embedder d.object

/-! ## Acts inside acts -/

/-- Acts are done one after the other. Each is entered when it begins, as is each call, during which more acts may be
done. Besides anything may happen that leaves the popup of the client alone. -/
inductive Goes (k : ClientRef) : World Journal → World Journal → Prop where
  | still (w : World Journal) : Goes k w w
  | act {w v : World Journal} (before : Goes k w v) (act : Act) (react : Reaction Journal)
      (during : ∀ c u, Goes k (enter (.calls c) u) (react c u)) :
      Goes k w ((act.perform k).outcome react (enter (.begins act) v)).2
  | aside {w v u : World Journal} (before : Goes k w v)
      (suggestions : (u.clients k).suggestions = (v.clients k).suggestions)
      (delegate : (u.clients k).delegate = (v.clients k).delegate)
      (view : (u.clients k).view = (v.clients k).view) (journal : u.embedder = v.embedder) : Goes k w u

theorem Goes.keeps (h : Goes k w v) : Settled k w → Settled k v := by
  induction h with
  | still w => exact id
  | act before act react during ih ihDuring => exact fun hw => (ih hw).perform ihDuring act
  | aside before suggestions delegate view journal ih =>
    intro hw
    obtain ⟨hfaithful, htells⟩ := ih hw
    refine ⟨by rw [journal]; exact hfaithful, ?_⟩
    rw [journal]
    exact ⟨suggestions.trans htells.suggestions, delegate.trans htells.delegate, view.trans htells.view⟩

/-- Whatever acts are done about a popup, and done again in the calls that they make, the client has what was
presented last, and an act makes the call that is due or none, before anything else happens. -/
theorem acts_make_due_calls (hview : (w.clients k).view = none) (hsuggestions : (w.clients k).suggestions = [])
    (hdelegate : (w.clients k).delegate = none) (hjournal : w.embedder = []) (h : Goes k w v) :
    (∀ react, ((Client.readSuggestions k).outcome react v).1 = v.embedder.suggestions) ∧
    (∀ later act u past, v.embedder = later ++ (.begins act, u) :: past →
      (∀ react, ((Client.readSuggestions k).outcome react u).1 = Journal.suggestions past) ∧
      Journal.answer later = Journal.due past u act) ∧
    ∀ later c u past, v.embedder = later ++ (.calls c, u) :: past →
      (∀ react, ((Client.readSuggestions k).outcome react u).1 = Journal.suggestions past) ∧
      ∃ act u' earlier, past = (.begins act, u') :: earlier ∧ Journal.due earlier u' act = some c := by
  have hread : ∀ {σ : Type} (u : World σ) react,
      ((Client.readSuggestions k).outcome react u).1 = (u.clients k).suggestions := by
    intro σ u react
    rw [Client.readSuggestions, Op.outcome_readCell]
    rfl
  have hstart : Settled k w := by
    refine ⟨?_, ?_⟩ <;> rw [hjournal]
    · exact .nil
    · exact ⟨hsuggestions, hdelegate, hview⟩
  obtain ⟨hfaithful, htells⟩ := h.keeps hstart
  refine ⟨fun react => (hread v react).trans htells.suggestions, fun later act u past hentry => ?_,
    fun later c u past hentry => ?_⟩
  · obtain ⟨hbegan, hanswer⟩ := hfaithful.begins hentry
    exact ⟨fun react => (hread u react).trans hbegan.suggestions, hanswer⟩
  · obtain ⟨hcalled, hcall⟩ := hfaithful.calls hentry
    exact ⟨fun react => (hread u react).trans hcalled.suggestions, hcall⟩

/-- While the view draws a popup its only suggestion is taken, and the delegate has the popup hidden while it
is told of that. Afterwards the suggestion is still there, but to select it once more calls nobody. -/
theorem hidden_popup_takes_nothing : ∃ w v : World Journal, Goes ⟨0⟩ w v ∧
    v.embedder.map Prod.fst =
      [.begins (.select 0), .calls (.hidePopup ⟨1⟩), .begins .hide, .calls (.accept ⟨2⟩ "a" 7 0),
        .begins (.select 0), .calls (.showPopup ⟨1⟩ ⟨.ofNat 0, .ofNat 0, .ofNat 1, .ofNat 1⟩ false [⟨"a", "", "", 7⟩]),
        .begins (.present ⟨.ofNat 0, .ofNat 0, .ofNat 1, .ofNat 1⟩ .leftToRight [⟨"a", "", "", 7⟩] (some ⟨2⟩)),
        .begins (.setView ⟨1⟩)] ∧
    (∀ react, ((Client.readSuggestions ⟨0⟩).outcome react v).1 = [⟨"a", "", "", 7⟩]) ∧
    ∀ u past, v.embedder = (.begins (.select 0), u) :: past → Journal.due past u (.select 0) = none := by
  let quiet : Notes Journal := fun _ w => w.embedder
  let w : World Journal := World.after quiet [.makeClient none, .makeView, .makeDelegate] { embedder := [] }
  let done : Reaction Journal → Act → World Journal → World Journal := fun react act u =>
    ((act.perform ⟨0⟩).outcome react (enter (.begins act) u)).2
  let hider : Reaction Journal := fun c u =>
    match c with
    | .accept .. => done (fun c u => enter (.calls c) u) .hide (enter (.calls c) u)
    | _ => enter (.calls c) u
  let taker : Reaction Journal := fun c u =>
    match c with
    | .showPopup .. => done hider (.select 0) (enter (.calls c) u)
    | _ => enter (.calls c) u
  let act : Act := .present ⟨.ofNat 0, .ofNat 0, .ofNat 1, .ofNat 1⟩ .leftToRight [⟨"a", "", "", 7⟩] (some ⟨2⟩)
  let v : World Journal := done taker (.select 0) (done taker act (done taker (.setView ⟨1⟩) w))
  have hhider : ∀ c u, Goes ⟨0⟩ (enter (.calls c) u) (hider c u) := by
    intro c u
    cases c with
    | accept => exact .act (.still _) .hide _ fun _ _ => .still _
    | _ => exact .still _
  have htaker : ∀ c u, Goes ⟨0⟩ (enter (.calls c) u) (taker c u) := by
    intro c u
    cases c with
    | showPopup => exact .act (.still _) (.select 0) hider hhider
    | _ => exact .still _
  have hgoes : Goes ⟨0⟩ w v :=
    .act (.act (.act (.still w) (.setView ⟨1⟩) taker htaker) act taker htaker) (.select 0) taker htaker
  obtain ⟨hsuggestions, hbegins, _⟩ := acts_make_due_calls (by rfl) (by rfl) (by rfl) (by rfl) hgoes
  exact ⟨w, v, hgoes, by decide +kernel, fun react => (hsuggestions react).trans (by decide +kernel),
    fun u past hentry => (hbegins [] (.select 0) u past hentry).2.symm⟩

end Popup

end SettingsRelay
