import SettingsRelay.Proofs.Leases
import SettingsRelay.Proofs.Watching

/-!
# Calls that stay outside

Whoever is called may also do nothing with the relay and only change what is not the relay's: what the engine keeps,
what the application's own hosts answer, and whatever else the application has. Then the world that an operation
leaves is known from its calls alone: each is taken up and answered, one after the other, and everything that the
operation held for a while it has given back.
-/

namespace SettingsRelay

variable {σ : Type}

/-! ## What is outside -/

/-- What is not the relay's: what the engine keeps of sessions and services, what the application's own hosts answer,
and what the embedder keeps. -/
structure Outside (σ : Type) where
  sessions : SessionRef → Session
  services : ServiceRef → Service
  settings : HostRef → Settings
  overrides : HostRef → Overrides
  embedder : σ

def Host.answering (s : Settings) (o : Overrides) : Host → Host
  | memory t b => memory t b
  | custom _ _ => custom s o

namespace World

def outside (w : World σ) : Outside σ where
  sessions := w.sessions
  services := w.services
  settings h := (w.hosts h).settings
  overrides h := (w.hosts h).overrides
  embedder := w.embedder

/-- The world with something else outside. Hosts in memory are the relay's and stay as they are. -/
def withOutside (w : World σ) (o : Outside σ) : World σ :=
  { w with
    sessions := o.sessions
    services := o.services
    hosts := fun h => (w.hosts h).answering (o.settings h) (o.overrides h)
    embedder := o.embedder }

theorem withOutside_outside (w : World σ) : w.withOutside w.outside = w := by
  have hhosts : (fun h => (w.hosts h).answering (w.outside.settings h) (w.outside.overrides h)) = w.hosts := by
    funext h
    simp only [outside]
    cases w.hosts h <;> rfl
  rw [withOutside, hhosts]
  rfl

theorem withOutside_withOutside (w : World σ) (o o' : Outside σ) :
    (w.withOutside o).withOutside o' = w.withOutside o' := by
  have hhosts : ((w.withOutside o).withOutside o').hosts = (w.withOutside o').hosts := by
    funext h
    simp only [withOutside]
    cases w.hosts h <;> rfl
  exact congrArg (fun hosts => { w with
    sessions := o'.sessions, services := o'.services, hosts := hosts, embedder := o'.embedder }) hhosts

end World

/-- The reaction of those who, while they are called, change only what is outside. -/
def Reaction.apart (answer : Call → Outside σ → Outside σ) : Reaction σ := fun c w =>
  w.withOutside (answer c w.outside)

/-! ## Calls one after the other -/

/-- The world in which a call has been taken up, before it is reacted to. -/
def Call.arrive : Call → World σ → World σ
  | userAgent s agent, w => w.changeSession s fun session => { session with userAgent := some agent }
  | entry s index overriding, w =>
    w.changeSession s fun session => { session with entries := session.entries.set index overriding }
  | stored p key value, w => w.changeService p (·.put key value)
  | _, w => w

def World.told (w : World σ) (react : Reaction σ) (cs : List Call) : World σ :=
  cs.foldl (fun w c => react c (c.arrive w)) w

theorem World.told_append (w : World σ) (react : Reaction σ) (cs ds : List Call) :
    w.told react (cs ++ ds) = (w.told react cs).told react ds := List.foldl_append ..

theorem Call.exists_arrive_eq (c : Call) (w : World σ) : ∃ o, c.arrive w = w.withOutside o := by
  have hself : ∀ (sessions : SessionRef → Session) (services : ServiceRef → Service),
      { w with sessions, services } = w.withOutside { w.outside with sessions, services } := fun sessions services =>
    congrArg (fun u : World σ => { u with sessions, services }) w.withOutside_outside.symm
  cases c with
  | userAgent | entry => exact ⟨_, hself _ w.services⟩
  | stored => exact ⟨_, hself w.sessions _⟩
  | _ => exact ⟨w.outside, w.withOutside_outside.symm⟩

/-- Calls that are answered from outside change nothing of the relay's own. -/
theorem World.exists_told_eq (answer : Call → Outside σ → Outside σ) (cs : List Call) :
    ∀ w : World σ, ∃ o, w.told (.apart answer) cs = w.withOutside o := by
  induction cs with
  | nil => exact fun w => ⟨w.outside, w.withOutside_outside.symm⟩
  | cons c rest ih =>
    intro w
    obtain ⟨o, ho⟩ := c.exists_arrive_eq w
    obtain ⟨o', ho'⟩ := ih (Reaction.apart answer c (c.arrive w))
    refine ⟨o', ho'.trans ?_⟩
    rw [Reaction.apart, ho, withOutside_withOutside, withOutside_withOutside]

/-- Whether an operation does nothing but make some calls. -/
def Op.Tells (op : Op σ Unit) (react : Reaction σ) (w : World σ) (cs : List Call) : Prop :=
  op.outcome react w = ((), w.told react cs)

section Told

variable {answer : Call → Outside σ → Outside σ} {w : World σ} {o : Object} {cs : List Call}

/-- A call that is answered from outside does not see who keeps what alive. -/
theorem World.told_acquire (holder : Holder) (o : Object) (cs : List Call) :
    ∀ w : World σ, (w.acquire holder o).told (.apart answer) cs = (w.told (.apart answer) cs).acquire holder o := by
  induction cs with
  | nil => exact fun _ => rfl
  | cons c rest ih =>
    intro w
    have hfirst : Reaction.apart answer c (c.arrive (w.acquire holder o)) =
        (Reaction.apart answer c (c.arrive w)).acquire holder o := by
      cases c <;> rfl
    rw [told, List.foldl_cons, hfirst]
    exact ih _

theorem World.isAlive_told (cs : List Call) (w : World σ) (o : Object) :
    (w.told (.apart answer) cs).isAlive o = w.isAlive o := by
  obtain ⟨_, hw⟩ := exists_told_eq answer cs w
  rw [hw]
  rfl

end Told

/-! ## What is held for a while -/

namespace World

variable {w : World σ} {o : Object}

/-- Where nothing is under lease, a lease that is given back leaves no trace. -/
theorem leased_of_leases (hquiet : w.leases = []) (l : Lease) : w.leased l = w := by
  rw [leased, isFree_of_leases hquiet, if_pos rfl]

theorem consulted_of_leases (hquiet : w.leases = []) (h : HostRef) : w.consulted h = w := by
  rw [consulted, leased_of_leases hquiet, ite_self]

/-- Nor does a share that is given back, if it was not the last one or the object is a service. -/
theorem letGo_acquire (hkept : w.isAlive o = true ∨ o.kind = .service) :
    (w.acquire .call o).releaseQuietly .call o = w := by
  rcases hkept with halive | hservice
  · exact releaseQuietly_acquire halive
  · obtain ⟨kind, n⟩ := o
    obtain rfl : kind = .service := hservice
    exact (releaseService_eq (r := ⟨n⟩) List.mem_cons_self).trans (withdraw_acquire w _ _)

end World

namespace Op

variable {α : Type} {react : Reaction σ} {w v : World σ} {o : Object} {cs ds : List Call}

theorem outcome_keeping_back {body : Op σ Unit} (hkept : v.isAlive o = true ∨ o.kind = .service)
    (hbody : body.outcome react (w.acquire .call o) = ((), v.acquire .call o)) :
    (keeping o body).outcome react w = ((), v) := by
  rw [outcome_keeping, hbody, World.letGo_acquire hkept]

theorem outcome_readHost_bind (hquiet : w.leases = []) (h : HostRef) (f : Host → α) (next : α → Op σ Unit) :
    (readHost h f >>= next).outcome react w = (next (f (w.hosts h))).outcome react w := by
  rw [outcome_bind, outcome_readHost, World.consulted_of_leases hquiet]

/-! ## Operations that only make calls -/

theorem tells_pure (react : Reaction σ) (w : World σ) : (pure () : Op σ Unit).Tells react w [] := rfl

theorem Tells.bind {op next : Op σ Unit} (hop : op.Tells react w cs) (hnext : next.Tells react (w.told react cs) ds) :
    (do op; next : Op σ Unit).Tells react w (cs ++ ds) := by
  rw [Tells, outcome_bind, hop, hnext, World.told_append]

theorem tells_call {c : Call} (hc : c.arrive w = w) : (call c).Tells react w [c] := by
  rw [Tells, outcome_call, World.told, List.foldl_cons, hc, List.foldl_nil]

theorem Tells.ite {p : Prop} [Decidable p] {op op' : Op σ Unit} (hthen : p → op.Tells react w cs)
    (helse : ¬p → op'.Tells react w ds) : (if p then op else op').Tells react w (if p then cs else ds) := by
  split
  · next hp => exact hthen hp
  · next hp => exact helse hp

theorem Tells.keeping {answer : Call → Outside σ → Outside σ} {body : Op σ Unit}
    (hkept : w.isAlive o = true ∨ o.kind = .service) (hbody : body.Tells (.apart answer) (w.acquire .call o) cs) :
    (keeping o body).Tells (.apart answer) w cs := by
  refine outcome_keeping_back ?_ (hbody.trans ?_)
  · rwa [World.isAlive_told]
  · rw [World.told_acquire]

end Op

namespace Session

theorem tells_overrideUserAgent (react : Reaction σ) (w : World σ) (s : SessionRef) (agent : String) :
    (overrideUserAgent s agent).Tells react w [.userAgent s agent] := rfl

theorem tells_markEntries (react : Reaction σ) (s : SessionRef) (overriding : Bool) (indices : List Nat) :
    ∀ w : World σ, (markEntries s overriding indices).Tells react w
      (indices.map fun index => .entry s index overriding) := by
  induction indices with
  | nil => exact fun w => Op.tells_pure react w
  | cons index rest ih =>
    intro w
    have hmark : (markEntry s index overriding).Tells react w [.entry s index overriding] := rfl
    exact hmark.bind (ih _)

end Session

theorem Service.tells_store (react : Reaction σ) (w : World σ) (p : ServiceRef) (key value : String) :
    (store p key value).Tells react w [.stored p key value] := rfl

end SettingsRelay
