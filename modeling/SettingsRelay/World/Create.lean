import SettingsRelay.World.Operation

/-!
# Making objects

New objects, in each of which the embedder is given the first share. An object that refers to
others for as long as it lives takes a share in them.
-/

namespace SettingsRelay

variable {σ : Type}

def Service.create : Op σ ServiceRef :=
  Op.create fun r w => { w with services := replaceAt w.services r {} }

/-- Makes a context without bridges, which may have a service. -/
def Context.create (switches : Switches) (service : Option ServiceRef) : Op σ ContextRef :=
  Op.create fun r w =>
    { w with contexts := replaceAt w.contexts r { switches, service } }.acquire?
      (.owner r.object) (service.map Ref.object)

/-- Makes a client that saves no form data, which may have a service. -/
def Client.create (service : Option ServiceRef) : Op σ ClientRef :=
  Op.create fun r w =>
    { w with clients := replaceAt w.clients r { service } }.acquire?
      (.owner r.object) (service.map Ref.object)

def Session.create (session : Session) : Op σ SessionRef :=
  Op.create fun r w =>
    { w with sessions := replaceAt w.sessions r session }.acquire?
      (.owner r.object) (session.client.map Ref.object)

/-- Changes who fills in forms for a session. The new client is kept before the old one is
released. -/
def Session.changeClient (s : SessionRef) (client : Option ClientRef) : Op σ Unit := do
  let old := ((← get).sessions s).client
  modify fun w =>
    (w.acquire? (.owner s.object) (client.map Ref.object)).changeSession s fun session =>
      { session with client }
  match old with
  | some c => modify (·.releaseClient (.owner s.object) c)
  | none => return

namespace Host

/-- Makes a host in memory, to which no bridge is attached. -/
def create (settings : Settings) : Op σ HostRef :=
  Op.create fun r w => { w with hosts := replaceAt w.hosts r (.memory settings none) }

def createCustom (settings : Settings) (overrides : Overrides) : Op σ HostRef :=
  Op.create fun r w => { w with hosts := replaceAt w.hosts r (.custom settings overrides) }

end Host

/-- Makes a view, of which nothing is known but whether it is alive. -/
def View.create : Op σ ViewRef := Op.create fun _ w => w

/-- Makes a delegate, of which nothing is known but whether it is alive. -/
def Delegate.create : Op σ DelegateRef := Op.create fun _ w => w

end SettingsRelay
