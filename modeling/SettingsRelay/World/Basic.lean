import SettingsRelay.World.Object

/-!
# The world

Everything that operations change: the objects, who keeps which of them alive, which of their
parts are in use, and what the embedder keeps for itself. An object is alive as long as somebody
has a share in it. A part in use must not be used again in a way that conflicts; where that
happens it is noted.
-/

namespace SettingsRelay

inductive Holder where
  /-- The application, for as long as it likes. -/
  | embedder
  /-- An operation, until it returns. -/
  | call
  /-- Another object, until it ends. -/
  | owner (o : Object)
deriving DecidableEq, Repr

/-- One reference that keeps an object alive. -/
structure Share where
  holder : Holder
  object : Object
deriving DecidableEq, Repr

/-- The parts of objects that are read and written under lease. -/
inductive Cell where
  | hostSettings (h : HostRef)
  | hostAttached (h : HostRef)
  | registry (c : ContextRef)
  | clientView (c : ClientRef)
  | clientSuggestions (c : ClientRef)
  | clientDelegate (c : ClientRef)
deriving DecidableEq, Repr

/-- A cell in use, by many readers or by one writer. -/
structure Lease where
  cell : Cell
  exclusive : Bool
deriving DecidableEq, Repr

/-- Two leases of one cell conflict unless both only read. -/
def Lease.conflictsWith (l m : Lease) : Bool :=
  l.cell = m.cell && (l.exclusive || m.exclusive)

/-- The end of a bridge, and the host that was told of it, if that was still alive. -/
structure Farewell where
  bridge : BridgeRef
  told : Option HostRef
deriving DecidableEq, Repr

/-- The objects and their ties, with what the embedder keeps for itself. -/
structure World (σ : Type) where
  services : ServiceRef → Service := fun _ => {}
  contexts : ContextRef → Context := fun _ => {}
  clients : ClientRef → Client := fun _ => {}
  sessions : SessionRef → Session := fun _ => ⟨⟨0⟩, none, [], false, false, none, none⟩
  hosts : HostRef → Host := fun _ => .custom {} {}
  bridges : BridgeRef → Bridge := fun _ => ⟨⟨0⟩, ⟨0⟩, ⟨0⟩, ⟨0⟩⟩
  /-- The number of the next object. -/
  next : Nat := 0
  shares : List Share := []
  leases : List Lease := []
  /-- The leases that were asked for against another one. -/
  conflicts : List Lease := []
  /-- The bridges that have ended, in order. -/
  farewells : List Farewell := []
  /-- The bridges that have been made, the newest first. -/
  made : List BridgeRef := []
  /-- The bridges that have been attached, each after its host, the newest first. -/
  attachments : List (HostRef × BridgeRef) := []
  embedder : σ

/-- The function with another value at one argument. -/
def replaceAt {α β : Type} [DecidableEq α] (f : α → β) (a : α) (b : β) : α → β :=
  fun x => if x = a then b else f x

@[simp] theorem replaceAt_self {α β : Type} [DecidableEq α] (f : α → β) (a : α) (b : β) :
    replaceAt f a b a = b := by
  simp [replaceAt]

theorem replaceAt_of_ne {α β : Type} [DecidableEq α] {f : α → β} {a x : α} {b : β} (h : x ≠ a) :
    replaceAt f a b x = f x := by
  simp [replaceAt, h]

theorem replaceAt_eq_self {α β : Type} [DecidableEq α] (f : α → β) (a : α) : replaceAt f a (f a) = f := by
  funext x
  by_cases hx : x = a
  · rw [hx, replaceAt_self]
  · exact replaceAt_of_ne hx

namespace World

variable {σ : Type}

/-! ## Changing objects -/

def changeService (w : World σ) (r : ServiceRef) (f : Service → Service) : World σ :=
  { w with services := replaceAt w.services r (f (w.services r)) }

def changeContext (w : World σ) (r : ContextRef) (f : Context → Context) : World σ :=
  { w with contexts := replaceAt w.contexts r (f (w.contexts r)) }

def changeClient (w : World σ) (r : ClientRef) (f : Client → Client) : World σ :=
  { w with clients := replaceAt w.clients r (f (w.clients r)) }

def changeSession (w : World σ) (r : SessionRef) (f : Session → Session) : World σ :=
  { w with sessions := replaceAt w.sessions r (f (w.sessions r)) }

def changeHost (w : World σ) (r : HostRef) (f : Host → Host) : World σ :=
  { w with hosts := replaceAt w.hosts r (f (w.hosts r)) }

/-- The world with a bridge attached to a host. -/
def attach (w : World σ) (h : HostRef) (b : BridgeRef) : World σ :=
  { w.changeHost h (·.withAttached (some b)) with attachments := (h, b) :: w.attachments }

/-- The session that receives what is asked of `s`. -/
def receiver (w : World σ) (s : SessionRef) : SessionRef := (w.sessions s).behind.getD s

/-! ## Shares -/

def isAlive (w : World σ) (o : Object) : Bool := w.shares.any (·.object = o)

def acquire (w : World σ) (holder : Holder) (o : Object) : World σ :=
  { w with shares := ⟨holder, o⟩ :: w.shares }

def acquire? (w : World σ) (holder : Holder) (o : Option Object) : World σ :=
  match o with
  | some o => w.acquire holder o
  | none => w

def withdraw (w : World σ) (holder : Holder) (o : Object) : World σ :=
  { w with shares := w.shares.erase ⟨holder, o⟩ }

/-- Takes a holder's share away. If it was the object's last, the object ends. -/
def release (w : World σ) (holder : Holder) (o : Object) (ends : World σ → World σ) : World σ :=
  if ⟨holder, o⟩ ∈ w.shares then
    let w := w.withdraw holder o
    if w.isAlive o then w else ends w
  else w

/-- Releases a service, which keeps nothing else alive. -/
def releaseService (w : World σ) (holder : Holder) (r : ServiceRef) : World σ :=
  w.release holder r.object id

/-- Releases the service that an object kept. -/
def releaseOwned (w : World σ) (owner : Object) (service : Option ServiceRef) : World σ :=
  match service with
  | some r => w.releaseService (.owner owner) r
  | none => w

def releaseContext (w : World σ) (holder : Holder) (r : ContextRef) : World σ :=
  w.release holder r.object fun w => w.releaseOwned r.object (w.contexts r).service

def releaseClient (w : World σ) (holder : Holder) (r : ClientRef) : World σ :=
  w.release holder r.object fun w => w.releaseOwned r.object (w.clients r).service

def releaseSession (w : World σ) (holder : Holder) (r : SessionRef) : World σ :=
  w.release holder r.object fun w =>
    match (w.sessions r).client with
    | some c => w.releaseClient (.owner r.object) c
    | none => w

/-- Releases an object whose end is noticed by nobody. -/
def releaseQuietly (w : World σ) (holder : Holder) (o : Object) : World σ :=
  match o with
  | ⟨.service, n⟩ => w.releaseService holder ⟨n⟩
  | ⟨.context, n⟩ => w.releaseContext holder ⟨n⟩
  | ⟨.client, n⟩ => w.releaseClient holder ⟨n⟩
  | ⟨.session, n⟩ => w.releaseSession holder ⟨n⟩
  | o => w.release holder o id

/-! ## Leases -/

def isFree (w : World σ) (l : Lease) : Bool := w.leases.all fun m => !l.conflictsWith m

/-- Takes a lease, and notes it if it could not be had. -/
def openLease (w : World σ) (l : Lease) : World σ :=
  { w with
    leases := l :: w.leases
    conflicts := if w.isFree l then w.conflicts else l :: w.conflicts }

def closeLease (w : World σ) (l : Lease) : World σ := { w with leases := w.leases.erase l }

end World

end SettingsRelay
