import SettingsRelay.Proofs.Share
import SettingsRelay.Proofs.Outcome

/-!
# The calls of an operation

Which calls an operation makes, in order. What is called may carry out operations of its own before
it returns; their calls are not among them. To tell the two apart the operation is run in a world
that is watched: whatever answers a call does not see the list of calls that were made before.
-/

namespace SettingsRelay

variable {σ : Type} {α : Type}

/-- The world with a list of calls beside what the embedder keeps. -/
def World.watched (w : World σ) (calls : List Call) : World (σ × List Call) :=
  { w with embedder := (w.embedder, calls) }

def World.unwatched (w : World (σ × List Call)) : World σ := { w with embedder := w.embedder.1 }

def Reaction.watched (react : Reaction σ) : Reaction (σ × List Call) := fun c w =>
  (react c w.unwatched).watched (w.embedder.2 ++ [c])

namespace Op

/-- The calls that an operation makes itself, in order. -/
def calls (op : Op (σ × List Call) α) (react : Reaction σ) (w : World σ) : List Call :=
  (op.outcome react.watched (w.watched [])).2.embedder.2

end Op

@[simp] theorem World.embedder_releaseQuietly (w : World σ) (holder : Holder) (o : Object) :
    (w.releaseQuietly holder o).embedder = w.embedder := by
  rw [World.releaseQuietly_eq]

@[simp] theorem World.embedder_consulted (w : World σ) (h : HostRef) :
    (w.consulted h).embedder = w.embedder := by
  unfold World.consulted
  split <;> rfl

@[simp] theorem Reaction.calls_watched (react : Reaction σ) (c : Call) (w : World (σ × List Call)) :
    (react.watched c w).embedder.2 = w.embedder.2 ++ [c] := rfl

end SettingsRelay
