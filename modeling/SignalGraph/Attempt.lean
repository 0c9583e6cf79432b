import SignalGraph.Error

/-! # Attempts

An action on a state that can be refused on the way. What it has done to the state by then stays
done: that a refusal leaves no trace is a matter of the order of its steps.
-/

namespace SignalGraph

/-- An action that works on a state and returns a result or is refused. -/
abbrev Attempt (σ β : Type) := EStateM Error σ β

/-- Goes on with the result of a check, or is refused as it is. -/
def demand {σ β : Type} (check : Except Error β) : Attempt σ β := fun s =>
  match check with
  | .ok b => .ok b s
  | .error e => .error e s

namespace Attempt

variable {σ τ β γ : Type}

/-- The state that an action leaves behind, also where it is refused. -/
def after (x : Attempt σ β) (s : σ) : σ :=
  match x s with
  | .ok _ s => s
  | .error _ s => s

def current : Attempt σ σ := fun s => .ok s s

def change (f : σ → σ) : Attempt σ Unit := fun s => .ok () (f s)

/-- An action on a part of the state, which is written back also where it is refused. -/
def within (x : Attempt τ β) (part : τ) (write : τ → σ → σ) : Attempt σ β := fun s =>
  match x part with
  | .ok b part => .ok b (write part s)
  | .error e part => .error e (write part s)

/-- Whether an action that is refused leaves every state as it was. -/
def Traceless (x : Attempt σ β) : Prop := ∀ s e s', x s = .error e s' → s' = s

theorem bind_apply (x : Attempt σ β) (f : β → Attempt σ γ) (s : σ) :
    (x >>= f) s = match x s with
      | .ok b s => f b s
      | .error e s => .error e s := by
  cases same : x s <;> simp only [bind, EStateM.bind, same]

@[simp] theorem pure_apply (b : β) (s : σ) : (pure b : Attempt σ β) s = .ok b s := rfl

@[simp] theorem current_apply (s : σ) : current s = .ok s s := rfl

@[simp] theorem change_apply (f : σ → σ) (s : σ) : change f s = .ok () (f s) := rfl

@[simp] theorem throw_apply (e : Error) (s : σ) : (throw e : Attempt σ β) s = .error e s := rfl

@[simp] theorem demand_ok (b : β) (s : σ) : (demand (.ok b) : Attempt σ β) s = .ok b s := rfl

@[simp] theorem demand_error (e : Error) (s : σ) :
    (demand (.error e) : Attempt σ β) s = .error e s := rfl

theorem after_bind (x : Attempt σ β) (f : β → Attempt σ γ) (s : σ) :
    (x >>= f).after s = match x s with
      | .ok b s => (f b).after s
      | .error _ s => s := by
  simp only [after, bind_apply]
  cases x s <;> rfl

theorem after_within (x : Attempt τ β) (part : τ) (write : τ → σ → σ) (s : σ) :
    (x.within part write).after s = write (x.after part) s := by
  simp only [after, within]
  cases x part <;> rfl

theorem after_demand (check : Except Error β) (s : σ) : (demand check).after s = s := by
  cases check <;> rfl

/-- What is done with the result alone leaves the same state behind. -/
theorem after_bind_pure (x : Attempt σ β) (f : β → γ) (s : σ) :
    (x >>= fun b => pure (f b)).after s = x.after s := by
  rw [after_bind, after]
  cases x s <;> rfl

end Attempt

end SignalGraph
