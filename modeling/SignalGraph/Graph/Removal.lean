import SignalGraph.Graph.Subscriptions

/-! # Removal

An object that goes takes those with it that cannot outlast it: a device its signals and links, a
signal its maps, a link the maps that run over it.
-/

namespace SignalGraph.Graph

variable {α : Type}

def retire (g : Graph α) (id : ObjectId) (how : Lifecycle) : Graph α :=
  let retired (r : Record) : Record :=
    { r with status := how.status, terminalAt := some g.now, observedCycle := none }
  (g.modify id retired).notify id how

/-- Removes a live record and what depends on it, down to a depth; tells whether there was one. -/
def removeWithin (depth : Nat) (g : Graph α) (id : ObjectId) (how : Lifecycle) :
    Graph α × Option Lifecycle :=
  match depth with
  | 0 => (g, none)
  | depth + 1 =>
    match g.store.find? id with
    | none => (g, none)
    | some r =>
      if !r.isLive then (g, none)
      else
        let g := g.retire id how
        let g := (g.store.dependents id r.kind).foldl
          (fun g dependent => (removeWithin depth g dependent how).1) g
        (if r.kind = .device then g.dropSubscription id else g, some how)

/-- Removes a record and what depends on it. Maps depend on signals and links, these on devices, and
    nothing on maps, so that three levels are all. -/
def remove (g : Graph α) (id : ObjectId) (how : Lifecycle) : Graph α × Option Lifecycle :=
  removeWithin 3 g id how

end SignalGraph.Graph
