import SignalGraph.Graph.Samples
import SignalGraph.Proofs.Frame
import SignalGraph.Proofs.StepRelations

/-! # Paths of operations

Of which small steps operations are made. A relation between graphs that goes on along the steps goes
on along the operation, whatever it is asked and wherever it is refused.
-/

namespace SignalGraph.Graph

variable {α β : Type} {R : Graph α → Graph α → Prop} [IsPreorder (Graph α) R] {g : Graph α}

/-! ## Changes of records -/

theorem touchOwner_walks (touches : ∀ (g : Graph α) id, R g (g.touch id)) (g : Graph α)
    (signal : ObjectId) : R g (g.touchOwner signal) := by
  simp only [touchOwner]
  split
  · exact touches g _
  · exact Std.Refl.refl g

theorem withPool_walks {signal : ObjectId}
    (fills : ∀ (g : Graph α) pool, R g (g.modify signal (·.withPool pool)))
    (x : Record → Attempt Pool β) : Attempt.Walks R (withPool signal x) := by
  refine .bind .current fun g => .bind (.demand _) fun r => .bind (.demand _) fun pool g => ?_
  rw [Attempt.after_within]
  exact fills g _

theorem editSlot_walks {map : ObjectId} {location : SlotLocation}
    (edits : ∀ (g : Graph α) f, R g (g.modify map (·.modifySlot location f)))
    (x : Attempt Table β) : Attempt.Walks R (editSlot map location x) := by
  refine .bind .current fun g => .bind (.demand _) fun r => ?_
  split
  · exact .throw _
  · intro g
    rw [Attempt.after_within]
    exact edits g _

theorem editProperties_after_of_isLive {id : ObjectId} {r : Record}
    (held : g.store.find? id = some r) (live : r.isLive) (x : Attempt Table β) :
    (editProperties id x).after g =
      g.modify id fun r => { r with properties := x.after r.properties } := by
  have same : g.store.modify id (fun r' => { r' with properties := x.after r.properties }) =
      g.store.modify id (fun r => { r with properties := x.after r.properties }) :=
    Store.modify_congr fun r' held' => by rw [Option.some.inj (held'.symm.trans held)]
  simp only [editProperties, Attempt.after_bind, Attempt.current_apply, held, live, Bool.not_true,
    Bool.false_eq_true, ↓reduceIte, Attempt.after_within, modify, same]

theorem editProperties_after_of_isVacant {id : ObjectId} (vacant : g.store.IsVacant id)
    (x : Attempt Table β) : (editProperties id x).after g = g := by
  simp only [editProperties, Attempt.after_bind, Attempt.current_apply]
  cases held : g.store.find? id with
  | none => rfl
  | some r => simp [vacant r held, Attempt.after_bind]

theorem editProperties_walks {id : ObjectId} {x : Attempt Table β}
    (edits : ∀ g : Graph α, R g (g.modify id fun r => { r with properties := x.after r.properties })) :
    Attempt.Walks R (editProperties id x) := by
  intro g
  rcases g.store.isVacant_or_isLive id with vacant | ⟨r, held, live⟩
  · exact (editProperties_after_of_isVacant vacant x).symm ▸ Std.Refl.refl g
  · exact (editProperties_after_of_isLive held live x).symm ▸ edits g

theorem push_walks {id : ObjectId} (sends : ∀ dest delta, Attempt.Walks R (send dest delta))
    (commits : ∀ g : Graph α, R g (g.modify id Record.commitStaged)) :
    Attempt.Walks R (push id) := by
  refine .bind .current fun g => ?_
  split
  · exact .throw _
  · split
    · exact fun g => Std.Refl.refl g
    · dsimp only
      split
      · exact .pure 0
      · exact .bind (sends _ _) fun _ => .bind (.change commits) fun _ => .pure _

/-! ## New records -/

theorem ensureDevice_walks
    (establishes : ∀ (g : Graph α) id now, R g (g.establish (.empty .device id) (.device now)))
    (id : ObjectId) : Attempt.Walks R (ensureDevice id) := by
  refine .bind .current fun g => ?_
  split
  · split
    · split
      · exact .throw _
      · exact .pure ()
    · exact .change fun g => establishes g id _
  · exact .change fun g => establishes g id _

theorem resolve_walks (ensures : ∀ id, Attempt.Walks R (ensureDevice id)) (delta : Delta) :
    Attempt.Walks R (resolve delta) := by
  refine .bind .current fun g => ?_
  split
  · exact .pure _
  · exact .bind (.demand _) fun device => .bind (.demand _) fun _ =>
      .bind (ensures device) fun _ => .pure _
  · refine .bind (.demand _) fun sources => .bind (.demand _) fun destination => ?_
    split
    · exact .pure _
    · exact .throw _
  · refine .bind (.demand _) fun ends => ?_
    split
    · exact .bind (.demand _) fun _ => .bind (.demand _) fun _ =>
        .bind (ensures _) fun _ => .bind (ensures _) fun _ => .pure _
    · exact .throw _

theorem create_walks
    (establishes : ∀ (g : Graph α) delta wiring, R g (g.establish delta wiring)) (delta : Delta) :
    Attempt.Walks R (create delta) :=
  .bind (resolve_walks (ensureDevice_walks fun g _ _ => establishes g _ _) delta) fun _ =>
    .bind (.change fun g => establishes g _ _) fun _ => .pure _

theorem newMap_walks (counts : ∀ (g : Graph α) localCounter, R g { g with localCounter })
    (inserts : ∀ (g : Graph α) r, R g (g.insert r)) (sources : List ObjectId)
    (destination : ObjectId) : Attempt.Walks R (newMap sources destination) := by
  have nextLocalId : Attempt.Walks R nextLocalId := by
    refine .bind .current fun g => ?_
    split
    · exact .bind (.change fun g => counts g _) fun _ => .pure _
    · exact .throw _
  refine .bind .current fun g => .bind (.demand _) fun _ => ?_
  split
  · exact .pure _
  · exact .bind nextLocalId fun id => .bind (.demand _) fun properties =>
      .bind (.change fun g => inserts g _) fun _ => .pure _

end SignalGraph.Graph
