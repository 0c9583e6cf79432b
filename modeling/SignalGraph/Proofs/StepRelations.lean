import Mathlib.Order.Defs.Unbundled
import SignalGraph.Attempt

/-! # Relations along steps

What goes along a preorder of states step by step goes along it as a whole. A loop and an attempt
are such successions of steps, also where the attempt is refused.
-/

namespace SignalGraph

variable {σ β γ : Type} {R : σ → σ → Prop} [IsPreorder σ R]

theorem foldl_walks {f : σ → β → σ} (items : List β) (each : ∀ s b, R s (f s b)) (s : σ) :
    R s (items.foldl f s) :=
  List.foldlRecOn items f (motive := R s) (Std.Refl.refl s)
    fun t sofar b _ => IsTrans.trans _ _ _ sofar (each t b)

namespace Attempt

/-- Whether an attempt goes along a relation from every state, also where it is refused. -/
def Walks (R : σ → σ → Prop) (x : Attempt σ β) : Prop := ∀ s, R s (x.after s)

namespace Walks

variable {x : Attempt σ β} {f : β → Attempt σ γ}

theorem bind (first : Walks R x) (rest : ∀ b, Walks R (f b)) : Walks R (x >>= f) := by
  intro s
  have step := first s
  rw [after_bind]
  simp only [after] at step
  cases same : x s with
  | ok b t =>
      rw [same] at step
      exact IsTrans.trans _ _ _ step (rest b t)
  | error e t =>
      rw [same] at step
      exact step

theorem pure (b : β) : Walks R (Pure.pure b : Attempt σ β) := fun s => Std.Refl.refl s

theorem throw (e : Error) : Walks R (MonadExcept.throw e : Attempt σ β) := fun s => Std.Refl.refl s

theorem current : Walks R (Attempt.current : Attempt σ σ) := fun s => Std.Refl.refl s

theorem demand (check : Except Error β) : Walks R (SignalGraph.demand check : Attempt σ β) :=
  fun s => (after_demand check s).symm ▸ Std.Refl.refl s

omit [IsPreorder σ R] in
theorem change {f : σ → σ} (each : ∀ s, R s (f s)) : Walks R (Attempt.change f) := each

end Walks

end Attempt

end SignalGraph
