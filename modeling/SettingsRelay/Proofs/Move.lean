import SettingsRelay.Autofill.Capability
import SettingsRelay.Proofs.Outcome

/-!
# Moves

An operation only makes moves from a short list, of which some are calls. The list is given here,
with what is known where each of them is made, and every operation is shown to lead from world to
world by such moves and by what happens during its calls. What holds at the start, is kept by each
move and is kept by whoever is called holds after every operation and whenever a call is made, so an
invariant is proved once for each move and never again for an operation.
-/

namespace SettingsRelay

variable {σ : Type} {α β : Type}

/-- A sort of moves, each with the world that it is made in, the call that it is, if it is one, and
the world that it leads to. -/
abbrev Moving (σ : Type) := World σ → Option Call → World σ → Prop

def Call.isFarewell : Call → Bool
  | bridgeGone .. => true
  | _ => false

namespace World

/-! ## What the longer moves do -/

def making {kind : ObjectKind} (w : World σ) (place : Ref kind → World σ → World σ) : World σ :=
  (place ⟨w.next⟩ { w with next := w.next + 1 }).acquire .embedder (⟨w.next⟩ : Ref kind).object

def makeBridge (w : World σ) (c : ContextRef) (s : SessionRef) (h : HostRef) : World σ :=
  let made := w.making fun (r : BridgeRef) w =>
    { w with
      bridges := replaceAt w.bridges r ⟨c, (w.sessions s).id, s, h⟩
      made := r :: w.made }.acquire (.owner r.object) c.object
  (made.changeContext c (·.enter (w.sessions s).id ⟨w.next⟩)).leased ⟨.registry c, true⟩

/-- The world without the entry of a session, unless the bridge that is entered is alive. -/
def unregister (w : World σ) (c : ContextRef) (id : SessionId) : World σ :=
  match (w.contexts c).entered? id with
  | some b => if w.isAlive b.object then w else w.changeContext c (·.strike id)
  | none => w

/-- The world in which the last share in a bridge is withdrawn and the bridge is out of the
registry. -/
def strike (w : World σ) (holder : Holder) (b : BridgeRef) : World σ :=
  ((w.withdraw holder b.object).unregister (w.bridges b).context (w.bridges b).sessionId).leased
    ⟨.registry (w.bridges b).context, true⟩

/-- The same with the end of the bridge noted. In this world its host is told, if it is alive. -/
def bury (w : World σ) (holder : Holder) (b : BridgeRef) : World σ :=
  let host := (w.bridges b).host
  let told := if (w.strike holder b).isAlive host.object then some host else none
  { w.strike holder b with farewells := (w.strike holder b).farewells ++ [⟨b, told⟩] }

def detach (w : World σ) (h : HostRef) (b : BridgeRef) : World σ :=
  match (w.hosts h).attached with
  | some a => if w.isAlive a.object && a ≠ b then w else w.changeHost h (·.withAttached none)
  | none => w

/-- The host that is told that a bridge has ended, if it is alive when the last share is withdrawn. -/
def told? (w : World σ) (holder : Holder) (b : BridgeRef) : Option HostRef :=
  let host := (w.bridges b).host
  if (w.strike holder b).isAlive host.object then some host else none

def farewell? (w : World σ) (holder : Holder) (b : BridgeRef) : Option Call :=
  match w.told? holder b with
  | some host =>
    if (w.hosts host).isInMemory then none else some (.bridgeGone host b (w.bridges b).sessionId)
  | none => none

/-- The end of a bridge up to that call: the bridge is buried and the host that is told is kept alive.
A host in memory has been told then. -/
def parted (w : World σ) (holder : Holder) (b : BridgeRef) : World σ :=
  match w.told? holder b with
  | some host =>
    let kept := (w.bury holder b).acquire .call host.object
    if (w.hosts host).isInMemory then (kept.detach host b).leased ⟨.hostAttached host, true⟩ else kept
  | none => w.bury holder b

/-- What follows at the end of a bridge: the host that was told and the context are let go. -/
def settled (w : World σ) (b : BridgeRef) (c : ContextRef) : Option HostRef → World σ
  | some host => (w.releaseQuietly .call host.object).releaseContext (.owner b.object) c
  | none => w.releaseContext (.owner b.object) c

/-! ## The moves -/

/-- The moves by which an update carries settings to an engine. Languages are not among them. A
move may be a call, which is made in the world that the move leads to. -/
inductive Carry : World σ → Option Call → World σ → Prop where
  | call (w : World σ) (c : Call) (h : c.isFarewell = false) : Carry w (some c) w
  | lease (w : World σ) (l : Lease) : Carry w none (w.leased l)
  | hold (w : World σ) (o : Object) (h : w.isAlive o = true ∨ o.kind = .service) :
    Carry w none (w.acquire .call o)
  | letGo (w : World σ) (o : Object) (h : o.kind ≠ .bridge) : Carry w none (w.releaseQuietly .call o)
  | agent (w : World σ) (s : SessionRef) (agent : String) :
    Carry w none (w.changeSession s fun session => { session with userAgent := some agent })
  | entry (w : World σ) (s : SessionRef) (index : Nat) (overriding : Bool) :
    Carry w none (w.changeSession s fun session =>
      { session with entries := session.entries.set index overriding })
  | saveFormData (w : World σ) (c : ClientRef) (enabled : Bool) :
    Carry w none (w.changeClient c fun client => { client with saveFormData := enabled })

inductive Move : World σ → Option Call → World σ → Prop where
  | carry {w v : World σ} {call : Option Call} (h : Carry w call v) : Move w call v
  | store (w : World σ) (p : ServiceRef) (key value : String) :
    Move w none (w.changeService p (·.put key value))
  /- Hosts. -/
  | set (w : World σ) (h : HostRef) (change : Change) (taken : change.isTaken = true) :
    Move w none (w.changeHost h fun host => host.withSettings (change.apply host.settings))
  | replace (w : World σ) (h : HostRef) (s : Settings) (valid : s.validate = .ok ()) :
    Move w none (w.changeHost h (·.withSettings s))
  | attach (w : World σ) (h : HostRef) (b : BridgeRef) (hostAlive : w.isAlive h.object = true)
      (bridgeAlive : w.isAlive b.object = true) :
    Move w none (w.attach h b)
  | customize (w : World σ) (h : HostRef) (s : Settings) (o : Overrides)
      (custom : (w.hosts h).isInMemory = false) :
    Move w none (w.changeHost h fun _ => .custom s o)
  /- Clients and sessions. -/
  | view (w : World σ) (c : ClientRef) (v : ViewRef) :
    Move w none (w.changeClient c fun client => { client with view := some v })
  | suggestions (w : World σ) (c : ClientRef) (suggestions : List Suggestion) :
    Move w none (w.changeClient c fun client => { client with suggestions })
  | delegate (w : World σ) (c : ClientRef) (delegate : Option DelegateRef) :
    Move w none (w.changeClient c fun client => { client with delegate })
  | remodel (w : World σ) (s : SessionRef) (hasExtension hasViewHost : Bool) (entries : List Bool) :
    Move w none (w.changeSession s fun session => { session with hasExtension, hasViewHost, entries })
  | engage (w : World σ) (s : SessionRef) (client : Option ClientRef)
      (alive : ∀ c ∈ client, w.isAlive c.object = true) :
    Move w none ((w.acquire? (.owner s.object) (client.map Ref.object)).changeSession s fun session =>
      { session with client })
  | dismiss (w : World σ) (s : SessionRef) (c : ClientRef) :
    Move w none (w.releaseClient (.owner s.object) c)
  /- New objects. -/
  | makeService (w : World σ) :
    Move w none (w.making fun (r : ServiceRef) w => { w with services := replaceAt w.services r {} })
  | makeContext (w : World σ) (switches : Switches) (service : Option ServiceRef)
      (alive : ∀ p ∈ service, w.isAlive p.object = true) :
    Move w none (w.making fun (r : ContextRef) w =>
      { w with contexts := replaceAt w.contexts r { switches, service } }.acquire?
        (.owner r.object) (service.map Ref.object))
  | makeClient (w : World σ) (service : Option ServiceRef)
      (alive : ∀ p ∈ service, w.isAlive p.object = true) :
    Move w none (w.making fun (r : ClientRef) w =>
      { w with clients := replaceAt w.clients r { service } }.acquire?
        (.owner r.object) (service.map Ref.object))
  | makeSession (w : World σ) (session : Session)
      (alive : ∀ c ∈ session.client, w.isAlive c.object = true) :
    Move w none (w.making fun (r : SessionRef) w =>
      { w with sessions := replaceAt w.sessions r session }.acquire?
        (.owner r.object) (session.client.map Ref.object))
  | makeHost (w : World σ) (s : Settings) :
    Move w none (w.making fun (r : HostRef) w => { w with hosts := replaceAt w.hosts r (.memory s none) })
  | makeCustomHost (w : World σ) (s : Settings) (o : Overrides) :
    Move w none (w.making fun (r : HostRef) w => { w with hosts := replaceAt w.hosts r (.custom s o) })
  | makeView (w : World σ) : Move w none (w.making fun (_ : ViewRef) w => w)
  | makeDelegate (w : World σ) : Move w none (w.making fun (_ : DelegateRef) w => w)
  | makeBridge (w : World σ) (c : ContextRef) (s : SessionRef) (h : HostRef)
      (contextAlive : w.isAlive c.object = true) (sessionAlive : w.isAlive s.object = true) :
    Move w none (w.makeBridge c s h)
  /- Keeping and letting go. -/
  | keep (w : World σ) (o : Object) (alive : w.isAlive o = true) : Move w none (w.acquire .embedder o)
  | drop (w : World σ) (o : Object) (h : o.kind ≠ .bridge) : Move w none (w.releaseQuietly .embedder o)
  | withdraw (w : World σ) (holder : Holder) (b : BridgeRef)
      (alive : (w.withdraw holder b.object).isAlive b.object = true) :
    Move w none (w.withdraw holder b.object)
  | bury (w : World σ) (holder : Holder) (b : BridgeRef)
      (held : ⟨holder, b.object⟩ ∈ w.shares)
      (dead : (w.withdraw holder b.object).isAlive b.object = false) :
    Move w (w.farewell? holder b) (w.parted holder b)
  | part (w : World σ) (b : BridgeRef) (c : ContextRef) :
    Move w none (w.releaseContext (.owner b.object) c)

end World

/-! ## Worlds that moves and calls lead to -/

def Reaction.answer (react : Reaction σ) : Option Call → World σ → World σ
  | some c, w => react c w
  | none, w => w

namespace World

/-- The worlds that moves of one sort lead to, with what happens during their calls. -/
inductive Leads (M : Moving σ) (react : Reaction σ) (w : World σ) : World σ → Prop where
  | start : Leads M react w w
  | move {v u : World σ} {call : Option Call} (h : Leads M react w v) (m : M v call u) :
    Leads M react w (react.answer call u)

namespace Leads

variable {M N : Moving σ} {react : Reaction σ} {w v u : World σ}

theorem of_move (m : M w none v) : Leads M react w v := by
  have h : Leads M react w (react.answer none v) := .move .start m
  exact h

theorem of_call {c : Call} (m : M w (some c) w) : Leads M react w (react c w) := by
  have h : Leads M react w (react.answer (some c) w) := .move .start m
  exact h

theorem trans (h : Leads M react w v) (k : Leads M react v u) : Leads M react w u := by
  induction k with
  | start => exact h
  | move _ m ih => exact .move ih m

theorem mono (hMN : ∀ a call b, M a call b → N a call b) (h : Leads M react w v) : Leads N react w v := by
  induction h with
  | start => exact .start
  | move _ m ih => exact .move ih (hMN _ _ _ m)

theorem keeps {I : World σ → Prop} (hstep : ∀ a call b, M a call b → I a → I (react.answer call b))
    (h : Leads M react w v) (hw : I w) : I v := by
  induction h with
  | start => exact hw
  | move _ m ih => exact hstep _ _ _ m ih

theorem keeps_answer {I : World σ → Prop} (hcall : ∀ c a, I a → I (react c a)) {call : Option Call}
    (hw : I w) : I (react.answer call w) := by
  cases call with
  | none => exact hw
  | some c => exact hcall c w hw

/-- What the moves keep and the calls keep is kept. -/
theorem invariant {I : World σ → Prop} (hmove : ∀ a call b, M a call b → I a → I b)
    (hcall : ∀ c a, I a → I (react c a)) (h : Leads M react w v) (hw : I w) : I v :=
  h.keeps (fun _ _ _ m ha => keeps_answer hcall (hmove _ _ _ m ha)) hw

/-- Worlds stay related as long as moves and calls only lead to related worlds. -/
theorem related {R : World σ → World σ → Prop} (hrefl : ∀ a, R a a)
    (htrans : ∀ {a b c}, R a b → R b c → R a c) (hmove : ∀ a call b, M a call b → R a b)
    (hcall : ∀ c a, R a (react c a)) (h : Leads M react w v) : R w v := by
  refine h.invariant (fun a call b m ha => htrans ha (hmove a call b m)) (fun c a ha => ?_) (hrefl w)
  exact htrans ha (hcall c a)

end Leads

end World

end SettingsRelay
