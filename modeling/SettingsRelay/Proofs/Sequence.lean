import SettingsRelay.Proofs.Behaviour
import SettingsRelay.Proofs.Inert
import SettingsRelay.Proofs.Watching

/-!
# Everything is its parts

An update of everything carries four parts with the host kept alive throughout. The same four parts can be
updated one after the other, and then only some of them keep the host, each for itself. As long as the host
lives anyway, nobody who is called can tell: both leave the same world and make the same calls.

A host that is alive at the start of an update of everything is kept to the end, whoever lets it go meanwhile,
and each part is carried from it in the world that the parts before have left. The session is kept only by a
part that has not made its last call. Once it is dead, the parts that follow make no call and change nothing.
-/

namespace SettingsRelay

variable {σ : Type}

open World (Pinned Hidden Unaware Move)

inductive Part where
  | pageScale
  | preferences
  | userAgent
  | formData
deriving DecidableEq, Repr

namespace Part

def all : List Part := [pageScale, preferences, userAgent, formData]

def push (b : BridgeRef) (h : HostRef) : Part → Op σ Unit
  | pageScale => Bridge.pushPageScale b h
  | preferences => Bridge.pushPreferences b
  | userAgent => Bridge.pushUserAgent b h
  | formData => Bridge.pushFormData b h

/-- The operation that carries a part by itself, after a look at the host. -/
def action : Part → BridgeAction
  | pageScale => .updatePageScale
  | preferences => .updatePreferences
  | userAgent => .updateUserAgent
  | formData => .updateFormData

def calls (react : Reaction σ) (b : BridgeRef) (h : HostRef) (w : World σ) : Part → List Call
  | pageScale => Bridge.pageScaleCalls b h w
  | preferences => Bridge.preferencesCalls b w
  | userAgent => Bridge.userAgentCalls b h react w
  | formData => []

end Part

namespace Bridge

def pushParts (b : BridgeRef) (h : HostRef) : List Part → Op σ Unit
  | [] => return
  | part :: rest => do
    part.push b h
    pushParts b h rest

def updateParts (b : BridgeRef) : List Part → Op σ Unit
  | [] => return
  | part :: rest => do
    part.action.perform b
    updateParts b rest

/-- The four parts one after the other, each by an operation of its own. -/
def updateInTurn (b : BridgeRef) : Op σ Unit := do
  updatePageScale b
  updatePreferences b
  updateUserAgent b
  updateFormData b

theorem updateInTurn_eq (b : BridgeRef) : (updateInTurn b : Op σ Unit) = updateParts b Part.all := rfl

theorem updateEverything_eq (b : BridgeRef) :
    (updateEverything b : Op σ Unit) = withHost b fun h => pushParts b h Part.all := rfl

end Bridge

/-! ## Bridges stay what they are -/

namespace World

def HasBridge (b : BridgeRef) (x : Bridge) (w : World σ) : Prop := b.index < w.next ∧ w.bridges b = x

theorem HasBridge.of_move {w v : World σ} {call : Option Call} {b : BridgeRef} {x : Bridge} (m : Move w call v)
    (hw : HasBridge b x w) : HasBridge b x v := by
  obtain ⟨hlt, hx⟩ := hw
  refine ⟨hlt.trans_le m.next_le, Eq.trans ?_ hx⟩
  rcases m.bridge_cases with ⟨hsame, _⟩ | ⟨_, service, _, _, rfl⟩ | ⟨c, s, h, _, _, rfl⟩ | ⟨holder, c, _, _, _, rfl⟩
  · rw [hsame.bridges]
  · cases service <;> rfl
  · have hne : b ≠ ⟨w.next⟩ := fun heq => hlt.ne (congrArg Ref.index heq)
    exact replaceAt_of_ne hne
  · rw [(SameBridges.of_parted w holder c).bridges, bridges_bury]

end World

/-- Whether an application leaves all bridges as they are, whatever it is called for. -/
def Reaction.KeepsBridges (react : Reaction σ) : Prop :=
  ∀ b x c w, World.HasBridge b x w → World.HasBridge b x (react c w)

theorem Op.Moves.hasBridge {op : Op σ Unit} {react : Reaction σ} (hop : op.Moves Move) (hreact : react.KeepsBridges)
    {w : World σ} {b : BridgeRef} {x : Bridge} (hw : w.HasBridge b x) : (op.outcome react w).2.HasBridge b x :=
  (hop w react).invariant (fun _ _ _ m ha => ha.of_move m) (fun c a ha => hreact b x c a ha) hw

theorem Behaviour.keepsBridges_reaction (answers : Call → Behaviour σ) : (reaction answers).KeepsBridges :=
  fun _ _ c w hw => (answers c).keeps (fun _ _ _ m ha => ha.of_move m) (fun _ _ ha => ha) w hw

theorem Reaction.KeepsBridges.watched {react : Reaction σ} (hreact : react.KeepsBridges) :
    react.watched.KeepsBridges := fun b x c w hw => hreact b x c w.unwatched hw

/-! ## Nobody notices that they are watched -/

namespace World.Pinned

variable {h : HostRef} {n : Nat} {w v : World σ}

theorem watched (hwv : Pinned h n w v) (before : List Call) : Pinned h n (w.watched before) (v.watched before) where
  same := by
    rw [hwv.same]
    rfl
  shares := hwv.shares

theorem unwatched {w v : World (σ × List Call)} (hwv : Pinned h n w v) : Pinned h n w.unwatched v.unwatched where
  same := by
    rw [hwv.same]
    rfl
  shares := hwv.shares

end World.Pinned

theorem Reaction.IsUnaware.watched {h : HostRef} {react : Reaction σ} (hreact : react.IsUnaware h) :
    react.watched.IsUnaware h := by
  intro c w hw
  have hcalled := hreact c w.unwatched hw
  refine ⟨hcalled.next_le, hcalled.mortal, hcalled.count, fun {n v} hwv hn => ⟨rfl, ?_⟩⟩
  have hcalls : v.embedder.2 = w.embedder.2 := by rw [hwv.same]
  change Pinned h n ((react c w.unwatched).watched (w.embedder.2 ++ [c]))
    ((react c v.unwatched).watched (v.embedder.2 ++ [c]))
  rw [hcalls]
  exact (hcalled.agrees hwv.unwatched hn).2.watched _

/-! ## Together and in turn -/

namespace World.Pinned

variable {h : HostRef} {w v : World σ}

/-- Where one more call keeps the host, another one can start. -/
theorem acquire_left (hwv : Pinned h 1 w v) : Pinned h 0 (w.acquire .call h.object) v where
  same := by
    rw [hwv.same]
    rfl
  shares := hwv.shares

theorem withdraw_left (hwv : Pinned h 0 w v) (hmem : pin h ∈ w.shares) :
    Pinned h 1 (w.withdraw .call h.object) v where
  same := by
    rw [hwv.same]
    rfl
  shares := hwv.shares.trans (List.perm_cons_erase hmem)

/-- Once that call is over the worlds are the same. -/
theorem withdraw_right (hwv : Pinned h 1 w v) : Pinned h 0 w (v.withdraw .call h.object) where
  same := by
    rw [hwv.same]
    rfl
  shares := by
    refine (hwv.shares.erase _).trans ?_
    change (List.erase (pin h :: w.shares) (pin h)).Perm w.shares
    rw [List.erase_cons_head]

end World.Pinned

section Sequence

variable {h : HostRef} {react : Reaction σ} (hreact : react.IsUnaware h) {b : BridgeRef} {x : Bridge}

include hreact

theorem Part.unaware_push (part : Part) {w : World σ} (hw : h.index < w.next) :
    Unaware h ((part.push b h).outcome react) w := by
  cases part with
  | pageScale => exact Bridge.unaware_pushPageScale hreact b h hw
  | preferences => exact Bridge.unaware_pushPreferences hreact b hw
  | userAgent => exact Bridge.unaware_pushUserAgent hreact b h hw
  | formData => exact Bridge.unaware_pushFormData b h hw

theorem Bridge.unaware_pushParts (parts : List Part) :
    ∀ {w : World σ}, h.index < w.next → Unaware h ((pushParts b h parts).outcome react) w := by
  induction parts with
  | nil => exact fun _ => Op.unaware_pure ()
  | cons part rest ih => exact fun hw => Op.unaware_bind hw (part.unaware_push hreact hw) fun _ _ hv => ih hv

theorem Bridge.unaware_updateParts (parts : List Part) :
    ∀ {w : World σ}, h.index < w.next → Unaware h ((updateParts b parts).outcome react) w := by
  induction parts with
  | nil => exact fun _ => Op.unaware_pure ()
  | cons part rest ih =>
    exact fun hw => Op.unaware_bind hw (unaware_perform hreact b part.action hw) fun _ _ hv => ih hv

omit hreact in
/-- An operation that keeps the host for itself does the same as where it is kept already. -/
theorem Bridge.pinned_withHost {body : HostRef → Op σ Unit} {w v : World σ}
    (hbody : Unaware h ((body h).outcome react) (w.acquire .call h.object)) (hhost : (w.bridges b).host = h)
    (halive : w.isAlive h.object = true) (hwv : Pinned h 1 w v) :
    Pinned h 1 ((withHost b body).outcome react w).2 ((body h).outcome react v).2 := by
  subst hhost
  have hmem : pin (w.bridges b).host ∈
      ((body (w.bridges b).host).outcome react (w.acquire .call (w.bridges b).host.object)).2.shares := by
    refine List.count_pos_iff.1 ?_
    rw [hbody.count]
    exact List.count_pos_iff.2 List.mem_cons_self
  rw [outcome_withHost react body halive, World.releaseQuietly_host]
  exact (hbody.agrees hwv.acquire_left (.inl rfl)).2.withdraw_left hmem

/-- A part by itself does the same as with the host kept, if the host lives anyway. -/
theorem Part.pinned_perform (part : Part) {w v : World σ} (hw : h.index < w.next) (hhost : (w.bridges b).host = h)
    (hwv : Pinned h 1 w v) (hafter : ((part.action.perform b).outcome react w).2.isAlive h.object = true) :
    Pinned h 1 ((part.action.perform b).outcome react w).2 ((part.push b h).outcome react v).2 := by
  have halive : w.isAlive h.object = true := (Bridge.unaware_perform hreact b part.action hw).mortal hafter
  cases part with
  | pageScale => exact Bridge.pinned_withHost (unaware_push hreact .pageScale hw) hhost halive hwv
  | userAgent => exact Bridge.pinned_withHost (unaware_push hreact .userAgent hw) hhost halive hwv
  | formData => exact Bridge.pinned_withHost (unaware_push hreact .formData hw) hhost halive hwv
  | preferences =>
    have hupdate : (Bridge.updatePreferences b).outcome react w = (Bridge.pushPreferences b).outcome react w := by
      rw [Bridge.updatePreferences, Bridge.ifHosted, Op.outcome_get_bind, Op.outcome_get_bind, hhost, if_pos halive]
    change Pinned h 1 ((Bridge.updatePreferences b).outcome react w).2 ((Bridge.pushPreferences b).outcome react v).2
    change ((Bridge.updatePreferences b).outcome react w).2.isAlive h.object = true at hafter
    rw [hupdate] at hafter ⊢
    exact ((Bridge.unaware_pushPreferences hreact b hw).agrees hwv (.inr hafter)).2

theorem Bridge.pinned_updateParts (hkeeps : react.KeepsBridges) (parts : List Part) :
    ∀ {w v : World σ}, h.index < w.next → w.HasBridge b x → x.host = h → Pinned h 1 w v →
      ((updateParts b parts).outcome react w).2.isAlive h.object = true →
      Pinned h 1 ((updateParts b parts).outcome react w).2 ((pushParts b h parts).outcome react v).2 := by
  induction parts with
  | nil => exact fun _ _ _ hwv _ => hwv
  | cons part rest ih =>
    intro w v hw hb hx hwv hafter
    have hpart := Bridge.unaware_perform hreact b part.action hw
    have hnext : h.index < ((part.action.perform b).outcome react w).2.next := hw.trans_le hpart.next_le
    have halive := (unaware_updateParts hreact rest hnext).mortal hafter
    have hhost : (w.bridges b).host = h := by rw [hb.2, hx]
    have hstep := part.pinned_perform hreact hw hhost hwv halive
    exact ih hnext ((moves_perform part.action b).hasBridge hkeeps hb) hx hstep hafter

/-- If the host is alive at the end, everything together does the same as the parts in turn. -/
theorem Bridge.pinned_updateEverything (hkeeps : react.KeepsBridges) {w : World σ} (hw : h.index < w.next)
    (hb : w.HasBridge b x) (hx : x.host = h)
    (hafter : ((updateParts b Part.all).outcome react w).2.isAlive h.object = true) :
    Pinned h 0 ((updateParts b Part.all).outcome react w).2 ((updateEverything b).outcome react w).2 := by
  have halive : w.isAlive h.object = true := (unaware_updateParts hreact Part.all hw).mortal hafter
  have hhost : (w.bridges b).host = h := by rw [hb.2, hx]
  have hparts := pinned_updateParts hreact hkeeps Part.all hw hb hx (.of_acquire h w) hafter
  rw [updateEverything_eq, outcome_withHost react _ (by rw [hhost, halive]), hhost, World.releaseQuietly_host]
  exact hparts.withdraw_right

theorem Bridge.host_kept (parts : List Part) {w : World σ} (hw : h.index < w.next) (hmem : pin h ∈ w.shares) :
    ((pushParts b h parts).outcome react w).2.isAlive h.object = true := by
  refine World.isAlive_iff.2 ⟨.call, List.count_pos_iff.1 ?_⟩
  have hcount := (unaware_pushParts hreact (b := b) parts hw).count
  change 0 < List.count (pin h) _
  rw [hcount]
  exact List.count_pos_iff.2 hmem

end Sequence

/-! ## The calls -/

namespace Bridge

variable (react : Reaction σ) (b : BridgeRef) (h : HostRef)

def partCalls : List Part → World σ → List Call
  | [], _ => []
  | part :: rest, w => part.calls react b h w ++ partCalls rest ((part.push b h).outcome react w).2

theorem makes_push (part : Part) (w : World σ) :
    Op.Makes (part.push b h) (part.push b h) react w (part.calls react b h w) := by
  cases part with
  | pageScale => exact makes_pushPageScale b h
  | preferences => exact makes_pushPreferences b
  | userAgent => exact makes_pushUserAgent b h
  | formData => exact makes_pushFormData b h

theorem makes_pushParts (parts : List Part) :
    ∀ w, Op.Makes (pushParts b h parts) (pushParts b h parts) react w (partCalls react b h parts w) := by
  induction parts with
  | nil => exact fun w => Op.makes_pure ()
  | cons part rest ih => exact fun w => Op.makes_bind (makes_push react b h part w) (ih _)

theorem makes_updateEverything (w : World σ) : Op.Makes (updateEverything b) (updateEverything b) react w
    (if w.isAlive (w.bridges b).host.object then
      partCalls react b (w.bridges b).host Part.all (w.acquire .call (w.bridges b).host.object) else []) :=
  makes_withHost b (makes_pushParts react b _ Part.all _)

theorem makes_perform (part : Part) (w : World σ) :
    ∃ cs, Op.Makes (part.action.perform b) (part.action.perform b) react w cs := by
  cases part with
  | pageScale => exact ⟨_, makes_withHost b (makes_pushPageScale b _)⟩
  | preferences => exact ⟨_, makes_ifHosted b (makes_pushPreferences b)⟩
  | userAgent => exact ⟨_, makes_withHost b (makes_pushUserAgent b _)⟩
  | formData => exact ⟨_, makes_withHost b (makes_pushFormData b _)⟩

theorem makes_updateParts (parts : List Part) :
    ∀ w, ∃ cs, Op.Makes (updateParts b parts) (updateParts b parts) react w cs := by
  induction parts with
  | nil => exact fun w => ⟨[], Op.makes_pure ()⟩
  | cons part rest ih =>
    intro w
    obtain ⟨cs, hpart⟩ := makes_perform react b part w
    obtain ⟨ds, hrest⟩ := ih ((part.action.perform b).outcome react w).2
    exact ⟨cs ++ ds, Op.makes_bind hpart hrest⟩

def actionCalls (w : World σ) (action : BridgeAction) : List Call :=
  let host := (w.bridges b).host
  let kept := w.acquire .call host.object
  if w.isAlive host.object then
    match action with
    | .updateEverything | .renderViewCreated => partCalls react b host Part.all kept
    | .updatePageScale => pageScaleCalls b host kept
    | .updatePreferences => preferencesCalls b w
    | .updateUserAgent => userAgentCalls b host react kept
    | .updateFormData => []
    | .updateAcceptLanguages => languageCalls b host kept
    | .resetScroll => scrollCalls b w
  else []

theorem makes_action (w : World σ) (action : BridgeAction) :
    Op.Makes (action.perform b) (action.perform b) react w (actionCalls react b w action) := by
  cases action with
  | updateEverything | renderViewCreated => exact makes_updateEverything react b w
  | updatePageScale => exact makes_withHost b (makes_pushPageScale b _)
  | updatePreferences => exact makes_ifHosted b (makes_pushPreferences b)
  | updateUserAgent => exact makes_withHost b (makes_pushUserAgent b _)
  | updateFormData => exact makes_withHost b (makes_pushFormData b _)
  | updateAcceptLanguages => exact makes_withHost b (makes_pushAcceptLanguages b _)
  | resetScroll => exact makes_resetScroll b

theorem moves_push (part : Part) : (part.push b h : Op σ Unit).Moves Move := by
  cases part with
  | pageScale => exact (moves_pushPageScale b h).mono fun _ _ _ => .carry
  | preferences => exact (moves_pushPreferences b).mono fun _ _ _ => .carry
  | userAgent => exact (moves_pushUserAgent b h).mono fun _ _ _ => .carry
  | formData => exact (moves_pushFormData b h).mono fun _ _ _ => .carry

theorem moves_pushParts (parts : List Part) : (pushParts b h parts : Op σ Unit).Moves Move := by
  induction parts with
  | nil => exact Op.moves_pure ()
  | cons part rest ih => exact (moves_push b h part).bind fun _ => ih

/-! ### From one part to the next -/

theorem outcome_pushParts_append (done rest : List Part) :
    ∀ w : World σ, (pushParts b h (done ++ rest)).outcome react w =
      (pushParts b h rest).outcome react ((pushParts b h done).outcome react w).2 := by
  induction done with
  | nil => exact fun _ => rfl
  | cons part done ih => exact fun w => ih _

theorem partCalls_append (done rest : List Part) :
    ∀ w : World σ, partCalls react b h (done ++ rest) w =
      partCalls react b h done w ++ partCalls react b h rest ((pushParts b h done).outcome react w).2 := by
  induction done with
  | nil => exact fun _ => rfl
  | cons part done ih =>
    intro w
    change _ ++ partCalls react b h (done ++ rest) _ = _
    rw [ih, ← List.append_assoc]
    rfl

/-! ### Without a session -/

theorem inert_pushParts {w : World σ} (hsession : w.isAlive (w.bridges b).session.object = false)
    (parts : List Part) :
    (pushParts b h parts).Inert w () := by
  induction parts with
  | nil => exact fun _ => rfl
  | cons part rest ih =>
    cases part with
    | pageScale => exact (inert_pushPageScale hsession h).bind ih
    | preferences => exact (inert_pushPreferences hsession).bind ih
    | userAgent => exact (inert_pushUserAgent hsession h).bind ih
    | formData => exact (inert_pushFormData hsession h).bind ih

theorem partCalls_of_dead {w : World σ} (hsession : w.isAlive (w.bridges b).session.object = false)
    (parts : List Part) : partCalls react b h parts w = [] := by
  have hinert := inert_pushParts b h (w := w.watched []) hsession parts react.watched
  rw [← (makes_pushParts react b h parts w).calls, Op.calls, hinert]
  rfl

end Bridge

/-! ### The last call of a part -/

theorem Session.outcome_markEntries_concat (react : Reaction σ) (s : SessionRef) (overriding : Bool) (index : Nat)
    (indices : List Nat) :
    ∀ w, ∃ v, (markEntries s overriding (indices ++ [index])).outcome react w =
      ((), react (.entry s index overriding) v) := by
  induction indices with
  | nil => exact fun w => ⟨_, rfl⟩
  | cons first rest ih => exact fun w => ih ((markEntry s first overriding).outcome react w).2

theorem Bridge.outcome_pushUserAgent (react : Reaction σ) (b : BridgeRef) (h : HostRef) {w : World σ}
    (hsession : w.isAlive (w.bridges b).session.object = true) :
    (pushUserAgent b h).outcome react w =
      ((), ((Session.markEntries (w.receiver (w.bridges b).session) (w.hosts h).userAgent.isSome (List.range
        ((identified b h react w).sessions (w.receiver (w.bridges b).session)).entries.length)).outcome react
          (identified b h react w)).2.releaseQuietly .call (w.bridges b).session.object) := by
  rw [pushUserAgent, outcome_withSession react _ hsession, Op.outcome_get_bind]
  dsimp only
  rw [Op.outcome_bind, Op.outcome_readHost]
  dsimp only
  have hhost : ((w.acquire .call (w.bridges b).session.object).hosts h).userAgent = (w.hosts h).userAgent := rfl
  rw [hhost, identified]
  cases (w.hosts h).userAgent with
  | none => rfl
  | some agent => rfl

/-- Once the entries are marked the last call has just returned, be it of an entry or of the user agent. -/
theorem Bridge.exists_marked (react : Reaction σ) (b : BridgeRef) (h : HostRef) {w : World σ} {c : Call}
    {count : Nat}
    (hlast : (((w.hosts h).userAgent.map (Call.userAgent (w.receiver (w.bridges b).session))).toList ++
      Session.entryCalls (w.receiver (w.bridges b).session) (w.hosts h).userAgent.isSome count).getLast? = some c) :
    ∃ v, (Session.markEntries (w.receiver (w.bridges b).session) (w.hosts h).userAgent.isSome
      (List.range count)).outcome react (identified b h react w) = ((), react c v) := by
  cases count with
  | zero =>
    cases hagent : (w.hosts h).userAgent with
    | none =>
      rw [hagent] at hlast
      cases hlast
    | some agent =>
      rw [hagent] at hlast
      cases hlast
      rw [identified, hagent]
      exact ⟨_, rfl⟩
  | succ count =>
    rw [Session.entryCalls, List.range_succ, List.map_append, ← List.append_assoc, List.map_singleton,
      List.getLast?_concat] at hlast
    cases hlast
    rw [List.range_succ]
    exact Session.outcome_markEntries_concat react _ _ count (List.range count) _

/-- What a part does once its last call has returned: it gives the session back if it has kept it. -/
def Part.letGo (s : SessionRef) (part : Part) (w : World σ) : World σ :=
  match part with
  | pageScale | formData => w
  | preferences | userAgent => w.releaseQuietly .call s.object

theorem Part.outcome_of_last (react : Reaction σ) (b : BridgeRef) (h : HostRef) {w : World σ}
    (part : Part) {c : Call}
    (hlast : (part.calls react b h w).getLast? = some c) :
    ∃ v, ((part.push b h).outcome react w).2 = part.letGo (w.bridges b).session (react c v) := by
  cases part with
  | pageScale =>
    change (Bridge.pageScaleCalls b h w).getLast? = some c at hlast
    unfold Bridge.pageScaleCalls at hlast
    split at hlast
    · next s hextension =>
      cases hlast
      exact ⟨w.consulted h, congrArg Prod.snd (Bridge.outcome_pushPageScale react h hextension)⟩
    · cases hlast
  | preferences =>
    change (Bridge.preferencesCalls b w).getLast? = some c at hlast
    unfold Bridge.preferencesCalls at hlast
    dsimp only at hlast
    split at hlast
    · next hsession =>
      split at hlast
      · next hview =>
        cases hlast
        rw [Bool.and_eq_true] at hview
        exact ⟨_, congrArg Prod.snd (Bridge.outcome_pushPreferences react hsession hview.1 hview.2)⟩
      · cases hlast
    · cases hlast
  | userAgent =>
    change (Bridge.userAgentCalls b h react w).getLast? = some c at hlast
    unfold Bridge.userAgentCalls at hlast
    dsimp only at hlast
    split at hlast
    · next hsession =>
      change ∃ v, ((Bridge.pushUserAgent b h).outcome react w).2 = _
      rw [Bridge.outcome_pushUserAgent react b h hsession]
      obtain ⟨v, hmarked⟩ := Bridge.exists_marked react b h hlast
      rw [hmarked]
      exact ⟨v, rfl⟩
    · cases hlast
  | formData => cases hlast

/-! ## An update of everything -/

/-- The same world, in which shares may have been taken in another order. -/
structure World.Alike (w v : World σ) : Prop where
  same : v = { w with shares := v.shares }
  shares : v.shares.Perm w.shares

namespace Bridge

theorem alike_updateEverything {react : Reaction σ} {b : BridgeRef} {h : HostRef} (hreact : react.IsUnaware h)
    (hkeeps : react.KeepsBridges) {w : World σ} (hw : h.index < w.next) (hbridge : b.index < w.next)
    (hhost : (w.bridges b).host = h) (hafter : ((updateInTurn b).outcome react w).2.isAlive h.object = true) :
    ((updateInTurn b).outcome react w).2.Alike ((updateEverything b).outcome react w).2 ∧
    (updateEverything b).calls react w = (updateInTurn b).calls react w := by
  simp only [updateInTurn_eq] at hafter ⊢
  obtain ⟨cs, hturn⟩ := makes_updateParts react b Part.all w
  have hplain := pinned_updateEverything hreact hkeeps hw ⟨hbridge, rfl⟩ hhost hafter
  refine ⟨⟨hplain.same, hplain.shares⟩, ?_⟩
  -- watched, the two worlds are the same as well, and the calls are part of them
  have hwatched : ((updateParts b Part.all).outcome react.watched (w.watched [])).2.isAlive h.object = true := by
    rw [hturn.world]
    exact hafter
  have hpinned :=
    pinned_updateEverything hreact.watched hkeeps.watched (w := w.watched []) hw ⟨hbridge, rfl⟩ hhost hwatched
  exact congrArg (fun v => v.embedder.2) hpinned.same

end Bridge

/-- An update of everything leaves the same world as its four parts in turn and makes the same calls, if the host is
alive after these. Once the session is dead no later part does anything. -/
theorem everything_is_its_parts {w : World σ} {b : BridgeRef} {h : HostRef} (answers : Call → Behaviour σ)
    (hhost : (w.bridges b).host = h) (hbridge : b.index < w.next) (hmade : h.index < w.next)
    {action : BridgeAction} (haction : action = .updateEverything ∨ action = .renderViewCreated) :
    let react := Behaviour.reaction answers
    let s := (w.bridges b).session
    let start := w.acquire .call h.object
    let after := fun parts => ((Bridge.pushParts b h parts).outcome react start).2
    (((Bridge.updateInTurn b).outcome react w).2.isAlive h.object = true →
      ((Bridge.updateInTurn b).outcome react w).2.Alike ((action.perform b).outcome react w).2 ∧
      (action.perform b).calls react w = (Bridge.updateInTurn b).calls react w) ∧
    (w.isAlive h.object = true →
      (action.perform b).outcome react w = ((), (after Part.all).releaseQuietly .call h.object) ∧
      (∀ done rest, Part.all = done ++ rest →
        (after done).isAlive h.object = true ∧
        (action.perform b).calls react w =
          Bridge.partCalls react b h done start ++ Bridge.partCalls react b h rest (after done) ∧
        ((after done).isAlive s.object = false →
          after Part.all = after done ∧ Bridge.partCalls react b h rest (after done) = [])) ∧
      ∀ done part rest c, Part.all = done ++ part :: rest →
        (part.calls react b h (after done)).getLast? = some c →
        ∃ v, after (done ++ [part]) = part.letGo s (react c v)) := by
  intro react s start after
  have hsame : ∀ {τ : Type}, (action.perform b : Op τ Unit) = Bridge.updateEverything b := by
    intro τ
    rcases haction with rfl | rfl <;> rfl
  have hreact : react.IsUnaware h := Behaviour.isUnaware_reaction h answers
  have hkeeps : react.KeepsBridges := Behaviour.keepsBridges_reaction answers
  have hafter : ∀ done rest, after (done ++ rest) = ((Bridge.pushParts b h rest).outcome react (after done)).2 := by
    intro done rest
    exact congrArg Prod.snd (Bridge.outcome_pushParts_append react b h done rest start)
  have hsession : ∀ done, ((after done).bridges b).session = s := by
    intro done
    have hties : start.HasBridge b (w.bridges b) := ⟨hbridge, rfl⟩
    rw [((Bridge.moves_pushParts b h done).hasBridge hkeeps hties).2]
  rw [hsame, hsame]
  refine ⟨Bridge.alike_updateEverything hreact hkeeps hmade hbridge hhost, fun halive => ⟨?_, ?_, ?_⟩⟩
  · rw [Bridge.updateEverything_eq, Bridge.outcome_withHost react _ (by rw [hhost, halive]), hhost]
  · intro done rest hall
    refine ⟨Bridge.host_kept hreact done hmade List.mem_cons_self, ?_, fun hdead => ?_⟩
    · rw [(Bridge.makes_updateEverything react b w).calls, hhost, if_pos halive, hall]
      exact Bridge.partCalls_append react b h done rest start
    · rw [← hsession done] at hdead
      rw [hall, hafter, Bridge.inert_pushParts b h hdead rest react]
      exact ⟨rfl, Bridge.partCalls_of_dead react b h hdead rest⟩
  · intro done part rest c _ hlast
    obtain ⟨v, hv⟩ := part.outcome_of_last react b h hlast
    rw [hsession done] at hv
    exact ⟨v, (hafter done [part]).trans hv⟩

/-- Lets a host go when preferences are to be made anew, and a session when it is given its user agent. -/
def Behaviour.faithless (h : HostRef) (s : SessionRef) : Call → Behaviour σ
  | .preferencesChanged _ => .act (.drop h.object) (fun _ => .rest) .rest
  | .userAgent _ _ => .act (.drop s.object) (fun _ => .rest) .rest
  | _ => .rest

/-- Gives a host another user agent when preferences are to be made anew. -/
def Behaviour.busy (h : HostRef) (agent : String) : Call → Behaviour σ
  | .preferencesChanged _ => .act (.set h (.userAgent (some agent))) (fun _ => .rest) .rest
  | _ => .rest

/-- An engine that lets host and session go is still called for both entries, where the parts in turn would have ended
with the preferences. Where it keeps the host and changes it, the parts that follow carry what it has changed. -/
theorem everything_outlives_host_and_session : ∃ w : World Diary, w.Reached Diary.note [] ∧
    (Bridge.updateEverything ⟨3⟩).calls (Behaviour.reaction (Behaviour.faithless ⟨2⟩ ⟨1⟩)) w =
      [.pageScale ⟨1⟩ noInitialPageScale, .preferencesChanged ⟨1⟩, .userAgent ⟨1⟩ "relay", .entry ⟨1⟩ 0 true,
        .entry ⟨1⟩ 1 true] ∧
    (Bridge.updateInTurn ⟨3⟩).calls (Behaviour.reaction (Behaviour.faithless ⟨2⟩ ⟨1⟩)) w =
      [.pageScale ⟨1⟩ noInitialPageScale, .preferencesChanged ⟨1⟩] ∧
    ((Bridge.updateInTurn ⟨3⟩).outcome (Behaviour.reaction (Behaviour.busy ⟨2⟩ "engine")) w).2.Alike
      ((Bridge.updateEverything ⟨3⟩).outcome (Behaviour.reaction (Behaviour.busy ⟨2⟩ "engine")) w).2 ∧
    (Bridge.updateEverything ⟨3⟩).calls (Behaviour.reaction (Behaviour.busy ⟨2⟩ "engine")) w =
      [.pageScale ⟨1⟩ noInitialPageScale, .preferencesChanged ⟨1⟩, .userAgent ⟨1⟩ "engine", .entry ⟨1⟩ 0 true,
        .entry ⟨1⟩ 1 true] := by
  let deeds : List Deed :=
    [.makeContext {} none, .makeSession { id := ⟨7⟩, entries := [false, false] },
      .makeHost { userAgent := some "relay" }, .makeBridge ⟨0⟩ ⟨1⟩ ⟨2⟩]
  let w : World Diary := World.after Diary.note deeds { embedder := [] }
  have hw : w.Reached Diary.note [] := World.evolves_after Diary.note deeds (.still _)
  have hhost : (w.bridges ⟨3⟩).host = ⟨2⟩ := by decide +kernel
  have hbridge : (⟨3⟩ : BridgeRef).index < w.next := by decide +kernel
  have hmade : (⟨2⟩ : HostRef).index < w.next := by decide +kernel
  have halive : w.isAlive (⟨2⟩ : HostRef).object = true := by decide +kernel
  have hafter : ((Bridge.updateInTurn ⟨3⟩).outcome (Behaviour.reaction (Behaviour.busy ⟨2⟩ "engine")) w).2.isAlive
      (⟨2⟩ : HostRef).object = true := by decide +kernel
  obtain ⟨_, hsplit, _⟩ :=
    (everything_is_its_parts (Behaviour.faithless ⟨2⟩ ⟨1⟩) hhost hbridge hmade (.inl rfl)).2 halive
  obtain ⟨halike, hcalls⟩ :=
    (everything_is_its_parts (Behaviour.busy ⟨2⟩ "engine") hhost hbridge hmade (.inl rfl)).1 hafter
  refine ⟨w, hw, ((hsplit [] Part.all rfl).2.1).trans ?_, ?_, halike, hcalls.trans ?_⟩
  · decide +kernel
  · decide +kernel
  · decide +kernel

end SettingsRelay
