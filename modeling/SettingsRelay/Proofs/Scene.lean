import Mathlib.Data.List.Basic
import SettingsRelay.Proofs.Image
import SettingsRelay.Proofs.Push

/-!
# Updates, seen in the engine

An engine under watch: each call is written down, and a view host that is asked to make its
preferences anew populates one record that it keeps, and does nothing else. Between the same objects
every update then does to the engine what it does to its image.
-/

namespace SettingsRelay

/-- What is kept of an engine under watch: the record of its view host and the calls so far, the
latest first. -/
structure Watch where
  record : Preferences := {}
  calls : List Call := []

namespace Watch

def note (call : Call) (w : World Watch) : World Watch :=
  { w with embedder := { w.embedder with calls := call :: w.embedder.calls } }

def keep (p : Preferences) (w : World Watch) : World Watch :=
  { w with embedder := { w.embedder with record := p } }

def populate (c : ContextRef) (s : SessionRef) (w : World Watch) : World Watch :=
  let filled := (Bridge.populateFor c s w.embedder.record).outcome note w
  keep filled.1 filled.2

/-- The reaction of an engine in which the view host of the session `s` populates its record. -/
def answer (c : ContextRef) (s : SessionRef) : Reaction Watch := fun call w =>
  match call with
  | .preferencesChanged t =>
    if t = w.receiver s then populate c s (note call w) else note call w
  | _ => note call w

def lastPageScale (s : SessionRef) (calls : List Call) : Option Single :=
  calls.findSome? fun
    | .pageScale t scale => if t = s then some scale else none
    | _ => none

def lastTextZoom (s : SessionRef) (calls : List Call) : Option Single :=
  calls.findSome? fun
    | .textZoom t factor => if t = s then some factor else none
    | _ => none

end Watch

/-- The objects between which updates run: a bridge with its context, session and host, the session
that receives what is asked of the bridge's session, and the autofill client. -/
structure Scene where
  context : ContextRef
  session : SessionRef
  host : HostRef
  bridge : BridgeRef
  receiver : SessionRef
  client : ClientRef
  switches : Switches

namespace Scene

def image (e : Scene) (w : World Watch) : Image where
  pageScale := Watch.lastPageScale e.receiver w.embedder.calls
  textZoom := Watch.lastTextZoom e.receiver w.embedder.calls
  record := w.embedder.record
  userAgent := (w.sessions e.receiver).userAgent
  entries := (w.sessions e.receiver).entries
  saveFormData := (w.clients e.client).saveFormData

def Lives (e : Scene) (shares : List Share) : Prop :=
  ∀ o, o = e.bridge.object ∨ o = e.session.object ∨ o = e.host.object → ∃ holder, ⟨holder, o⟩ ∈ shares

/-- The scene is set: the bridge is attached to its host, which has the settings `s`, and is found for its session;
the render view has all that it can have; the engine shows `i`. -/
structure Holds (e : Scene) (shares : List Share) (s : Settings) (i : Image) (w : World Watch) : Prop where
  shared : w.shares = shares
  lives : e.Lives shares
  bridge : w.bridges e.bridge = ⟨e.context, (w.sessions e.session).id, e.session, e.host⟩
  entered : (w.contexts e.context).entered? (w.sessions e.session).id = some e.bridge
  switches : (w.contexts e.context).switches = e.switches
  host : w.hosts e.host = .memory s (some e.bridge)
  receiver : w.receiver e.session = e.receiver
  extension : (w.sessions e.receiver).hasExtension = true
  viewHost : (w.sessions e.receiver).hasViewHost = true
  client : (w.sessions e.session).client = some e.client
  image : e.image w = i

theorem image_note_pageScale (e : Scene) (w : World Watch) (scale : Single) :
    e.image (Watch.note (.pageScale e.receiver scale) w) =
      { e.image w with pageScale := some scale } := by
  simp [image, Watch.note, Watch.lastPageScale, Watch.lastTextZoom]

theorem image_note_textZoom (e : Scene) (w : World Watch) (factor : Single) :
    e.image (Watch.note (.textZoom e.receiver factor) w) =
      { e.image w with textZoom := some factor } := by
  simp [image, Watch.note, Watch.lastPageScale, Watch.lastTextZoom]

theorem image_changeSession (e : Scene) (w : World Watch) (f : Session → Session) :
    e.image (w.changeSession e.receiver f) =
      { e.image w with
        userAgent := (f (w.sessions e.receiver)).userAgent
        entries := (f (w.sessions e.receiver)).entries } := by
  simp [image, World.changeSession]

variable {e : Scene} {shares : List Share} {s : Settings} {i j k : Image} {w : World Watch}

namespace Holds

theorem alive (hw : e.Holds shares s i w) {o : Object}
    (ho : o = e.bridge.object ∨ o = e.session.object ∨ o = e.host.object) : w.isAlive o = true := by
  rw [World.isAlive_iff, hw.shared]
  exact hw.lives o ho

theorem host_alive (hw : e.Holds shares s i w) :
    w.isAlive (w.bridges e.bridge).host.object = true := by
  rw [hw.bridge]
  exact hw.alive (.inr (.inr rfl))

theorem session_alive (hw : e.Holds shares s i w) :
    w.isAlive (w.bridges e.bridge).session.object = true := by
  rw [hw.bridge]
  exact hw.alive (.inr (.inl rfl))

theorem withImage (hw : e.Holds shares s i w) (h : i = j) : e.Holds shares s j w := h ▸ hw

/-- What happens outside the scene may change what is seen of the engine, and nothing else. -/
theorem elsewhere (hw : e.Holds shares s i w) {v : World Watch} (hshares : v.shares = w.shares)
    (hbridges : v.bridges = w.bridges) (hcontexts : v.contexts = w.contexts) (hhosts : v.hosts = w.hosts)
    (hsessions : v.sessions = w.sessions) (himage : e.image v = j) : e.Holds shares s j v where
  shared := hshares.trans hw.shared
  lives := hw.lives
  bridge := by
    rw [hbridges, hsessions]
    exact hw.bridge
  entered := by
    rw [hcontexts, hsessions]
    exact hw.entered
  switches := by
    rw [hcontexts]
    exact hw.switches
  host := by
    rw [hhosts]
    exact hw.host
  receiver := by
    rw [World.receiver, hsessions]
    exact hw.receiver
  extension := by
    rw [hsessions]
    exact hw.extension
  viewHost := by
    rw [hsessions]
    exact hw.viewHost
  client := by
    rw [hsessions]
    exact hw.client
  image := himage

theorem leased (hw : e.Holds shares s i w) (l : Lease) : e.Holds shares s i (w.leased l) :=
  hw.elsewhere rfl rfl rfl rfl rfl hw.image

theorem consulted (hw : e.Holds shares s i w) (h : HostRef) : e.Holds shares s i (w.consulted h) := by
  unfold World.consulted
  split
  · exact hw.leased _
  · exact hw

theorem acquire (hw : e.Holds shares s i w) (o : Object) :
    e.Holds (⟨.call, o⟩ :: shares) s i (w.acquire .call o) where
  shared := congrArg _ hw.shared
  lives p hp := by
    obtain ⟨holder, hmem⟩ := hw.lives p hp
    exact ⟨holder, List.mem_cons_of_mem _ hmem⟩
  bridge := hw.bridge
  entered := hw.entered
  switches := hw.switches
  host := hw.host
  receiver := hw.receiver
  extension := hw.extension
  viewHost := hw.viewHost
  client := hw.client
  image := hw.image

theorem withShares (hw : e.Holds shares s i w) {others : List Share} (hlives : e.Lives others) :
    e.Holds others s i { w with shares := others } :=
  ⟨rfl, hlives, hw.bridge, hw.entered, hw.switches, hw.host, hw.receiver, hw.extension,
    hw.viewHost, hw.client, hw.image⟩

/-- A share that a call gives back is as if it had never been taken. -/
theorem release {o : Object} (hlives : e.Lives shares)
    (ho : o = e.bridge.object ∨ o = e.session.object ∨ o = e.host.object)
    (hw : e.Holds (⟨.call, o⟩ :: shares) s i w) : e.Holds shares s i (w.releaseQuietly .call o) := by
  -- the release is seen from the world before the share was taken, in which the object is alive
  have hback : ({ w with shares := shares } : World Watch).acquire .call o = w := by
    rw [World.acquire, ← hw.shared]
  have halive : ({ w with shares := shares } : World Watch).isAlive o = true :=
    World.isAlive_iff.2 (hlives o ho)
  rw [← hback, World.releaseQuietly_acquire halive]
  exact hw.withShares hlives

/-! ### What is noted and changed -/

theorem note (hw : e.Holds shares s i w) (call : Call) :
    e.Holds shares s (e.image (Watch.note call w)) (Watch.note call w) :=
  hw.elsewhere rfl rfl rfl rfl rfl rfl

theorem note_pageScale (hw : e.Holds shares s i w) (scale : Single) :
    e.Holds shares s { i with pageScale := some scale } (Watch.note (.pageScale e.receiver scale) w) := by
  have hnoted := hw.note (.pageScale e.receiver scale)
  rwa [image_note_pageScale, hw.image] at hnoted

theorem note_textZoom (hw : e.Holds shares s i w) (factor : Single) :
    e.Holds shares s { i with textZoom := some factor } (Watch.note (.textZoom e.receiver factor) w) := by
  have hnoted := hw.note (.textZoom e.receiver factor)
  rwa [image_note_textZoom, hw.image] at hnoted

/-- What is asked of the receiving session changes neither its ties nor its abilities. -/
theorem changeSession (hw : e.Holds shares s i w) {f : Session → Session}
    (hf : ∀ session, (f session).id = session.id ∧ (f session).behind = session.behind ∧
      (f session).client = session.client ∧ (f session).hasExtension = session.hasExtension ∧
      (f session).hasViewHost = session.hasViewHost) :
    e.Holds shares s (e.image (w.changeSession e.receiver f)) (w.changeSession e.receiver f) := by
  have hsession : ∀ t, (w.changeSession e.receiver f).sessions t = w.sessions t ∨
      (w.changeSession e.receiver f).sessions t = f (w.sessions t) := by
    intro t
    by_cases ht : t = e.receiver
    · subst ht
      exact .inr (replaceAt_self _ _ _)
    · exact .inl (replaceAt_of_ne ht)
  have hsame : ∀ {α : Type} (g : Session → α), (∀ session, g (f session) = g session) → ∀ t,
      g ((w.changeSession e.receiver f).sessions t) = g (w.sessions t) := by
    intro α g hg t
    rcases hsession t with ht | ht
    · rw [ht]
    · rw [ht, hg]
  have hid := hsame (·.id) (fun session => (hf session).1)
  refine ⟨hw.shared, hw.lives, ?_, ?_, hw.switches, hw.host, ?_, ?_, ?_, ?_, rfl⟩
  · rw [hid]
    exact hw.bridge
  · rw [hid]
    exact hw.entered
  · rw [World.receiver, hsame (·.behind) (fun session => (hf session).2.1)]
    exact hw.receiver
  · rw [hsame (·.hasExtension) (fun session => (hf session).2.2.2.1)]
    exact hw.extension
  · rw [hsame (·.hasViewHost) (fun session => (hf session).2.2.2.2)]
    exact hw.viewHost
  · rw [hsame (·.client) (fun session => (hf session).2.2.1)]
    exact hw.client

theorem withdraw {o : Object} (hlives : e.Lives shares) (hw : e.Holds (⟨.call, o⟩ :: shares) s i w) :
    e.Holds shares s i (w.withdraw .call o) := by
  rw [World.withdraw, hw.shared, List.erase_cons_head]
  exact hw.withShares hlives

theorem release_service {p : ServiceRef} (hlives : e.Lives shares)
    (hw : e.Holds (⟨.call, p.object⟩ :: shares) s i w) :
    e.Holds shares s i (w.releaseQuietly .call p.object) := by
  have hmem : ⟨.call, p.object⟩ ∈ w.shares := by
    rw [hw.shared]
    exact List.mem_cons_self
  change e.Holds shares s i (w.releaseService .call p)
  rw [World.releaseService_eq hmem]
  exact withdraw hlives hw

theorem release_bridge (hlives : e.Lives shares)
    (hw : e.Holds (⟨.call, e.bridge.object⟩ :: shares) s i w) (react : Reaction Watch) :
    (Op.release .call e.bridge.object).outcome react w = ((), w.withdraw .call e.bridge.object) :=
  Op.outcome_release_bridge react ((withdraw hlives hw).alive (.inl rfl))

theorem extension? (hw : e.Holds shares s i w) : Bridge.extension? w e.bridge = some e.receiver := by
  rw [Bridge.extension?, hw.session_alive, hw.bridge, hw.receiver, hw.extension]
  rfl

theorem stored (hw : e.Holds shares s i w) (f : Settings → Settings) :
    e.Holds shares (f s) i (w.stored e.host f) := by
  refine ⟨hw.shared, hw.lives, hw.bridge, hw.entered, hw.switches, ?_, hw.receiver, hw.extension,
    hw.viewHost, hw.client, hw.image⟩
  rw [World.hosts_stored, hw.host]
  rfl

/-! ### Population -/

theorem keep (hw : e.Holds shares s i w) (p : Preferences) :
    e.Holds shares s { i with record := p } (Watch.keep p w) := by
  refine hw.elsewhere rfl rfl rfl rfl rfl ?_
  rw [← hw.image]
  rfl

theorem populate (hw : e.Holds shares s i w) (p : Preferences) :
    ∃ v, (Bridge.populate e.bridge p).outcome Watch.note w = (p.populated (.memory s none) e.switches, v) ∧
      e.Holds shares s
        { i with textZoom := some (TextZoom.ofPercent s.textSizePercent s.textAutosizingEnabled).factor } v := by
  have hextension := (hw.acquire (w.bridges e.bridge).host.object).extension?
  have hzoomed := ((hw.acquire e.host.object).consulted e.host).note_textZoom
    (TextZoom.ofPercent s.textSizePercent s.textAutosizingEnabled).factor
  refine ⟨_, ?_, release hw.lives (.inr (.inr rfl)) hzoomed⟩
  rw [Bridge.outcome_populate Watch.note p hw.host_alive hextension, hw.bridge]
  dsimp only
  rw [hw.host, hw.switches]
  rfl

theorem populateFor (hw : e.Holds shares s i w) (p : Preferences) :
    ∃ v, (Bridge.populateFor e.context e.session p).outcome Watch.note w =
        (p.populated (.memory s none) e.switches, v) ∧
      e.Holds shares s
        { i with textZoom := some (TextZoom.ofPercent s.textSizePercent s.textAutosizingEnabled).factor } v := by
  have hfound : w.living? ((w.contexts e.context).entered? (w.sessions e.session).id) = some e.bridge := by
    rw [hw.entered]
    exact World.living?_of_alive (hw.alive (.inl rfl))
  obtain ⟨v, hv, hholds⟩ := ((hw.leased ⟨.registry e.context, false⟩).acquire e.bridge.object).populate p
  refine ⟨_, ?_, withdraw hw.lives hholds⟩
  rw [Bridge.populateFor, Op.outcome_get_bind, Op.outcome_bind, Registry.outcome_find?, hfound]
  change (Bridge.populate e.bridge p >>= _).outcome Watch.note
    ((w.leased ⟨.registry e.context, false⟩).acquire .call e.bridge.object) = _
  rw [Op.outcome_bind, hv, Op.outcome_bind, release_bridge hw.lives hholds]
  rfl

theorem answer_preferencesChanged (hw : e.Holds shares s i w) :
    e.Holds shares s (i.withPreferences e.switches s)
      (Watch.answer e.context e.session (.preferencesChanged e.receiver) w) := by
  have hnoted := hw.note (.preferencesChanged e.receiver)
  have himage : e.image (Watch.note (.preferencesChanged e.receiver) w) = i := hw.image
  rw [himage] at hnoted
  have hrecord : w.embedder.record = i.record := by
    rw [← hw.image]
    rfl
  obtain ⟨v, hv, hholds⟩ := hnoted.populateFor i.record
  have hanswer : Watch.answer e.context e.session (.preferencesChanged e.receiver) w =
      Watch.keep (i.record.populated (.memory s none) e.switches) v := by
    change ite _ (Watch.populate _ _ (Watch.note _ w)) _ = _
    rw [if_pos hw.receiver.symm, Watch.populate]
    change Watch.keep ((Bridge.populateFor e.context e.session w.embedder.record).outcome _ _).1
      ((Bridge.populateFor e.context e.session w.embedder.record).outcome _ _).2 = _
    rw [hrecord, hv]
  rw [hanswer]
  exact hholds.keep _

end Holds

end Scene

end SettingsRelay
