import SettingsRelay.Proofs.Calls
import SettingsRelay.Proofs.Push

/-!
# Watching operations

An operation does the same in a world that is watched as in the world itself, and the list of calls grows by
those that it makes. The lemmas here follow the operations down to these calls, so that they give for each
part of what updates carry the calls that it makes.
-/

namespace SettingsRelay

variable {σ : Type} {α β : Type}

namespace World

variable (w : World σ) (before : List Call)

/-! ## The list changes nothing -/

theorem watched_release (holder : Holder) (o : Object) {ends : World σ → World σ}
    {ends' : World (σ × List Call) → World (σ × List Call)}
    (hends : ∀ v, ends' (v.watched before) = (ends v).watched before) :
    (w.watched before).release holder o ends' = (w.release holder o ends).watched before := by
  have hwithdraw : (w.watched before).withdraw holder o = (w.withdraw holder o).watched before := rfl
  have halive : ((w.withdraw holder o).watched before).isAlive o = (w.withdraw holder o).isAlive o := rfl
  have hmem : (w.watched before).shares = w.shares := rfl
  simp only [release, hwithdraw, halive, hmem]
  split
  · split
    · rfl
    · exact hends _
  · rfl

theorem watched_releaseOwned (owner : Object) (service : Option ServiceRef) :
    (w.watched before).releaseOwned owner service = (w.releaseOwned owner service).watched before := by
  cases service with
  | none => rfl
  | some r => exact watched_release w before _ _ fun _ => rfl

theorem watched_releaseClient (holder : Holder) (r : ClientRef) :
    (w.watched before).releaseClient holder r = (w.releaseClient holder r).watched before :=
  watched_release w before _ _ fun v => watched_releaseOwned v before _ _

theorem watched_releaseContext (holder : Holder) (r : ContextRef) :
    (w.watched before).releaseContext holder r = (w.releaseContext holder r).watched before :=
  watched_release w before _ _ fun v => watched_releaseOwned v before _ _

theorem watched_releaseSession (holder : Holder) (r : SessionRef) :
    (w.watched before).releaseSession holder r = (w.releaseSession holder r).watched before := by
  refine watched_release w before _ _ fun v => ?_
  have hclient : ((v.watched before).sessions r).client = (v.sessions r).client := rfl
  rw [hclient]
  cases (v.sessions r).client with
  | none => rfl
  | some c => exact watched_releaseClient v before _ c

theorem watched_releaseQuietly (holder : Holder) (o : Object) :
    (w.watched before).releaseQuietly holder o = (w.releaseQuietly holder o).watched before := by
  obtain ⟨kind, i⟩ := o
  cases kind with
  | service => exact watched_release w before _ _ fun _ => rfl
  | context => exact watched_releaseContext w before holder ⟨i⟩
  | client => exact watched_releaseClient w before holder ⟨i⟩
  | session => exact watched_releaseSession w before holder ⟨i⟩
  | host | bridge | view | delegate => exact watched_release w before _ _ fun _ => rfl

theorem watched_consulted (h : HostRef) : (w.watched before).consulted h = (w.consulted h).watched before := by
  have hmemory : ((w.watched before).hosts h).isInMemory = (w.hosts h).isInMemory := rfl
  simp only [consulted, hmemory]
  split <;> rfl

end World

namespace Op

variable {react : Reaction σ} {w : World σ} {cs ds : List Call}

/-- Whether an operation, in the world and in the same world watched, does the same and makes the calls
`cs`. -/
def Makes (watched : Op (σ × List Call) α) (op : Op σ α) (react : Reaction σ) (w : World σ)
    (cs : List Call) : Prop :=
  ∀ before, watched.outcome react.watched (w.watched before) =
    ((op.outcome react w).1, (op.outcome react w).2.watched (before ++ cs))

theorem Makes.calls {watched : Op (σ × List Call) α} {op : Op σ α} (hop : Makes watched op react w cs) :
    watched.calls react w = cs := by
  rw [Op.calls, hop []]
  rfl

theorem Makes.world {watched : Op (σ × List Call) α} {op : Op σ α} (hop : Makes watched op react w cs) :
    (watched.outcome react.watched (w.watched [])).2 = (op.outcome react w).2.watched (watched.calls react w) := by
  rw [hop.calls, hop []]
  rfl

theorem makes_pure (x : α) : Makes (pure x) (pure x) react w [] := by
  intro before
  rw [List.append_nil]
  rfl

theorem makes_bind {watched : Op (σ × List Call) α} {op : Op σ α} {next' : α → Op (σ × List Call) β}
    {next : α → Op σ β}
    (hop : Makes watched op react w cs)
    (hnext : Makes (next' (op.outcome react w).1) (next (op.outcome react w).1) react (op.outcome react w).2 ds) :
    Makes (watched >>= next') (op >>= next) react w (cs ++ ds) := by
  intro before
  rw [outcome_bind, hop before, outcome_bind, hnext (before ++ cs), List.append_assoc]

/-- What is done after looking at the world must not depend on the list. -/
theorem makes_get_bind {next' : World (σ × List Call) → Op (σ × List Call) α} {next : World σ → Op σ α}
    (hlook : ∀ before, next' (w.watched before) = next' (w.watched []))
    (hnext : Makes (next' (w.watched [])) (next w) react w cs) :
    Makes (get >>= next') (get >>= next) react w cs := by
  intro before
  rw [outcome_get_bind, hlook, outcome_get_bind]
  exact hnext before

theorem makes_ite {p : Prop} [Decidable p] {watched watched' : Op (σ × List Call) α} {op op' : Op σ α}
    (hthen : Makes watched op react w cs) (helse : Makes watched' op' react w ds) :
    Makes (if p then watched else watched') (if p then op else op') react w (if p then cs else ds) := by
  split
  · exact hthen
  · exact helse

theorem makes_call (c : Call) : Makes (call c) (call c) react w [c] := fun _ => rfl

theorem makes_modify {f' : World (σ × List Call) → World (σ × List Call)} {f : World σ → World σ}
    (hf : ∀ before, f' (w.watched before) = (f w).watched before) :
    Makes (modify f' : Op _ Unit) (modify f) react w [] := by
  intro before
  rw [outcome_modify, hf, List.append_nil]
  rfl

theorem makes_readHost_bind (h : HostRef) (f : Host → α) {next' : α → Op (σ × List Call) β} {next : α → Op σ β}
    (hnext : Makes (next' (f (w.hosts h))) (next (f (w.hosts h))) react (w.consulted h) cs) :
    Makes (readHost h f >>= next') (readHost h f >>= next) react w cs := by
  intro before
  rw [outcome_bind, outcome_readHost, World.watched_consulted, outcome_bind, outcome_readHost]
  exact hnext before

theorem makes_keeping {o : Object} {watched : Op (σ × List Call) α} {op : Op σ α}
    (hbody : Makes watched op react (w.acquire .call o) cs) :
    Makes (keeping o watched) (keeping o op) react w cs := by
  intro before
  have hacquire : (w.watched before).acquire .call o = (w.acquire .call o).watched before := rfl
  rw [outcome_keeping, hacquire, hbody before, World.watched_releaseQuietly, outcome_keeping]

end Op

/-! ## What an engine is called for -/

def Session.entryCalls (s : SessionRef) (overriding : Bool) (count : Nat) : List Call :=
  (List.range count).map fun index => .entry s index overriding

theorem Session.makes_markEntries (react : Reaction σ) (s : SessionRef) (overriding : Bool) (indices : List Nat) :
    ∀ w, Op.Makes (markEntries s overriding indices) (markEntries s overriding indices) react w
      (indices.map fun index => .entry s index overriding) := by
  induction indices with
  | nil => exact fun w => Op.makes_pure ()
  | cons index rest ih =>
    intro w
    have hmark : Op.Makes (markEntry s index overriding) (markEntry s index overriding) react w
        [.entry s index overriding] := Op.makes_bind (Op.makes_modify fun _ => rfl) (Op.makes_call _)
    exact Op.makes_bind hmark (ih _)

theorem Session.makes_overrideUserAgent (react : Reaction σ) (w : World σ) (s : SessionRef) (agent : String) :
    Op.Makes (overrideUserAgent s agent) (overrideUserAgent s agent) react w [.userAgent s agent] :=
  Op.makes_bind (Op.makes_modify fun _ => rfl) (Op.makes_call _)

/-! ## What a bridge calls for -/

namespace Bridge

variable {react : Reaction σ} {w : World σ} (b : BridgeRef) (h : HostRef) {cs : List Call}

theorem makes_withHost {watched : HostRef → Op (σ × List Call) Unit} {body : HostRef → Op σ Unit}
    (hbody : Op.Makes (watched (w.bridges b).host) (body (w.bridges b).host) react
      (w.acquire .call (w.bridges b).host.object) cs) :
    Op.Makes (withHost b watched) (withHost b body) react w
      (if w.isAlive (w.bridges b).host.object then cs else []) := by
  refine Op.makes_get_bind (fun _ => rfl) (Op.makes_get_bind (fun _ => rfl) ?_)
  exact Op.makes_ite (Op.makes_keeping hbody) (Op.makes_pure ())

theorem makes_ifHosted {watched : Op (σ × List Call) Unit} {body : Op σ Unit}
    (hbody : Op.Makes watched body react w cs) :
    Op.Makes (ifHosted b watched) (ifHosted b body) react w
      (if w.isAlive (w.bridges b).host.object then cs else []) := by
  refine Op.makes_get_bind (fun _ => rfl) (Op.makes_get_bind (fun _ => rfl) ?_)
  exact Op.makes_ite hbody (Op.makes_pure ())

theorem makes_withSession {watched : SessionRef → Op (σ × List Call) Unit} {body : SessionRef → Op σ Unit}
    (hbody : Op.Makes (watched (w.bridges b).session) (body (w.bridges b).session) react
      (w.acquire .call (w.bridges b).session.object) cs) :
    Op.Makes (withSession b watched) (withSession b body) react w
      (if w.isAlive (w.bridges b).session.object then cs else []) := by
  refine Op.makes_get_bind (fun _ => rfl) (Op.makes_get_bind (fun _ => rfl) ?_)
  exact Op.makes_ite (Op.makes_keeping hbody) (Op.makes_pure ())

/-! ### The page scale -/

def pageScaleCalls (w : World σ) : List Call :=
  match extension? w b with
  | some s =>
    [.pageScale s (SettingsRelay.initialPageScale (w.hosts h).initialPageScalePercent (w.hosts h).dipScale)]
  | none => []

theorem makes_pushPageScale :
    Op.Makes (pushPageScale b h) (pushPageScale b h) react w (pageScaleCalls b h w) := by
  refine Op.makes_get_bind (fun _ => rfl) ?_
  have hextension : extension? (w.watched []) b = extension? w b := rfl
  rw [hextension, pageScaleCalls]
  cases extension? w b with
  | none => exact Op.makes_pure ()
  | some s => exact Op.makes_readHost_bind h _ (Op.makes_call _)

/-! ### The preferences -/

def preferencesCalls (w : World σ) : List Call :=
  let receiver := w.receiver (w.bridges b).session
  if w.isAlive (w.bridges b).session.object then
    if (w.sessions receiver).hasExtension && (w.sessions receiver).hasViewHost then [.preferencesChanged receiver]
    else []
  else []

theorem makes_pushPreferences :
    Op.Makes (pushPreferences b) (pushPreferences b) react w (preferencesCalls b w) := by
  refine makes_withSession b (Op.makes_get_bind (fun _ => rfl) ?_)
  exact Op.makes_ite (Op.makes_call _) (Op.makes_pure ())

/-! ### The user agent -/

/-- The world in which a session was given a host's user agent. It is kept, and the host has been read. -/
def identified (react : Reaction σ) (w : World σ) : World σ :=
  let kept := (w.acquire .call (w.bridges b).session.object).consulted h
  match (w.hosts h).userAgent with
  | some agent => ((Session.overrideUserAgent (w.receiver (w.bridges b).session) agent).outcome react kept).2
  | none => kept

/-- The user agent, if there is one, and then all entries of which the session has told how many they are when
that call has returned. -/
def userAgentCalls (react : Reaction σ) (w : World σ) : List Call :=
  let receiver := w.receiver (w.bridges b).session
  let agent := (w.hosts h).userAgent
  if w.isAlive (w.bridges b).session.object then
    (agent.map (.userAgent receiver)).toList ++
      Session.entryCalls receiver agent.isSome ((identified b h react w).sessions receiver).entries.length
  else []

theorem makes_pushUserAgent :
    Op.Makes (pushUserAgent b h) (pushUserAgent b h) react w (userAgentCalls b h react w) := by
  have hmark : ∀ receiver overriding u, Op.Makes (do
      let count := ((← get).sessions receiver).entries.length
      Session.markEntries receiver overriding (List.range count)) (do
      let count := ((← get).sessions receiver).entries.length
      Session.markEntries receiver overriding (List.range count) : Op σ Unit) react u
        (Session.entryCalls receiver overriding (u.sessions receiver).entries.length) :=
    fun receiver overriding u => Op.makes_get_bind (fun _ => rfl) (Session.makes_markEntries react _ _ _ u)
  refine makes_withSession b (Op.makes_get_bind (fun _ => rfl) ?_)
  refine Op.makes_readHost_bind h _ ?_
  dsimp only
  have hhost : ((w.acquire .call (w.bridges b).session.object).hosts h).userAgent = (w.hosts h).userAgent := rfl
  rw [hhost, identified]
  cases (w.hosts h).userAgent with
  | none => exact hmark _ _ _
  | some agent => exact Op.makes_bind (Session.makes_overrideUserAgent react _ _ agent) (hmark _ _ _)

/-! ### Form data -/

theorem makes_pushFormData : Op.Makes (pushFormData b h) (pushFormData b h) react w [] := by
  have hpush : Op.Makes (pushFormData b h) (pushFormData b h) react w
      (if w.isAlive (w.bridges b).session.object then [] else []) := by
    refine Op.makes_get_bind (fun _ => rfl) (Op.makes_ite ?_ (Op.makes_pure ()))
    have hclient : ((w.watched []).sessions ((w.watched []).bridges b).session).client =
        (w.sessions (w.bridges b).session).client := rfl
    rw [hclient]
    cases (w.sessions (w.bridges b).session).client with
    | none => exact Op.makes_pure ()
    | some c => exact Op.makes_readHost_bind h _ (Op.makes_modify fun _ => rfl)
  rw [ite_self] at hpush
  exact hpush

/-! ### Languages and scrolling -/

def languageCalls (w : World σ) : List Call :=
  match (w.contexts (w.bridges b).context).service with
  | some p => [.stored p acceptLanguagesKey (w.hosts h).acceptLanguages]
  | none => []

theorem makes_pushAcceptLanguages :
    Op.Makes (pushAcceptLanguages b h) (pushAcceptLanguages b h) react w (languageCalls b h w) := by
  refine Op.makes_get_bind (fun _ => rfl) ?_
  have hservice : ((w.watched []).contexts ((w.watched []).bridges b).context).service =
      (w.contexts (w.bridges b).context).service := rfl
  rw [hservice, languageCalls]
  cases (w.contexts (w.bridges b).context).service with
  | none => exact Op.makes_pure ()
  | some p =>
    refine Op.makes_keeping (Op.makes_readHost_bind h _ ?_)
    exact Op.makes_bind (Op.makes_modify fun _ => rfl) (Op.makes_call _)

def scrollCalls (w : World σ) : List Call := ((extension? w b).map Call.resetScroll).toList

theorem makes_resetScroll :
    Op.Makes (resetScroll b) (resetScroll b) react w
      (if w.isAlive (w.bridges b).host.object then scrollCalls b w else []) := by
  refine makes_ifHosted b (Op.makes_get_bind (fun _ => rfl) ?_)
  have hextension : extension? (w.watched []) b = extension? w b := rfl
  rw [hextension, scrollCalls]
  cases extension? w b with
  | none => exact Op.makes_pure ()
  | some s => exact Op.makes_call _

/-! ### Population -/

def zoomCalls (w : World σ) : List Call :=
  ((extension? w b).map (.textZoom · (w.hosts (w.bridges b).host).textZoom.factor)).toList

theorem makes_populate (p : Preferences) :
    Op.Makes (populate b p) (populate b p) react w
      (if w.isAlive (w.bridges b).host.object then zoomCalls b (w.acquire .call (w.bridges b).host.object)
      else []) := by
  refine Op.makes_get_bind (fun _ => rfl) (Op.makes_get_bind (fun _ => rfl) (Op.makes_ite ?_ (Op.makes_pure p)))
  refine Op.makes_keeping (Op.makes_get_bind (fun _ => rfl) ?_)
  have hbridge : (w.watched []).bridges b = w.bridges b := rfl
  have hextension : extension? ((w.acquire .call (w.bridges b).host.object).watched []) b =
      extension? (w.acquire .call (w.bridges b).host.object) b := rfl
  rw [hbridge, hextension, zoomCalls]
  cases extension? (w.acquire .call (w.bridges b).host.object) b with
  | none => exact Op.makes_pure p
  | some s =>
    refine Op.makes_readHost_bind _ _ (Op.makes_get_bind (fun _ => rfl) ?_)
    exact Op.makes_bind (Op.makes_call _) (Op.makes_pure _)

end Bridge

end SettingsRelay
