/-!
# References

Objects are known by references that name their kind and a number. A number is given out once, so
a later object is never mistaken for an earlier one.
-/

namespace SettingsRelay

/-- The kinds of objects that references keep alive. -/
inductive ObjectKind where
  | service
  | context
  | client
  | session
  | host
  | bridge
  | view
  | delegate
deriving DecidableEq, Repr

/-- A reference to an object of a known kind. -/
structure Ref (kind : ObjectKind) where
  index : Nat
deriving DecidableEq, Repr

abbrev ServiceRef := Ref .service
abbrev ContextRef := Ref .context
abbrev ClientRef := Ref .client
abbrev SessionRef := Ref .session
abbrev HostRef := Ref .host
abbrev BridgeRef := Ref .bridge
abbrev ViewRef := Ref .view
abbrev DelegateRef := Ref .delegate

structure Object where
  kind : ObjectKind
  index : Nat
deriving DecidableEq, Repr

def Ref.object {kind : ObjectKind} (r : Ref kind) : Object := ⟨kind, r.index⟩

theorem Ref.object_injective {kind : ObjectKind} {r s : Ref kind} (h : r.object = s.object) :
    r = s := by
  cases r
  cases s
  simpa [object] using h

@[simp] theorem Ref.object_inj {kind : ObjectKind} {r s : Ref kind} :
    r.object = s.object ↔ r = s :=
  ⟨object_injective, fun h => h ▸ rfl⟩

structure SessionId where
  value : UInt64
deriving DecidableEq, Repr

/-- Sessions are ordered by their numbers. -/
instance : Ord SessionId := ⟨fun a b => compare a.value b.value⟩

/-- How a session is called in messages. -/
def SessionId.label (id : SessionId) : String := s!"session#{id.value.toNat}"

end SettingsRelay
