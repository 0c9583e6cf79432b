import SignalGraph.Proofs.Duplicate

/-! # Signs of life

A device that gives a sign of life while a poll takes messages in still counts as heard of just now
when the poll looks for silent ones. The clock stands meanwhile, new records count as signs of life,
and no message takes a sign of life back.
-/

namespace SignalGraph

/-! ## Records -/

namespace Record

variable {r s : Record} {now synced : Timetag}

theorem synced?_eq_some_iff : r.synced? = some synced ↔ r.wiring = .device synced := by
  cases wiring : r.wiring <;> simp [synced?, wiring]

/-- Whether a record, if it is that of a device that is there, tells of a sign of life at a time. -/
def FreshAt (r : Record) (now : Timetag) : Prop :=
  ∀ synced, r.synced? = some synced → r.isLive → synced = now

theorem FreshAt.congr (fresh : r.FreshAt now) (synced : s.synced? = r.synced?)
    (live : s.isLive → r.isLive) : s.FreshAt now :=
  fun time heard there => fresh time (synced ▸ heard) (live there)

theorem freshAt_of_refreshed (refreshed : s.synced? = r.synced?.map fun _ => now) :
    s.FreshAt now := by
  intro time heard _
  rw [refreshed] at heard
  obtain ⟨_, -, same⟩ := Option.map_eq_some_iff.mp heard
  exact same.symm

theorem freshAt_of_gone (gone : r.isLive = false) : r.FreshAt now :=
  fun _ _ there => absurd (gone.symm.trans there) Bool.false_ne_true

theorem synced?_withPool (r : Record) (pool : Pool) : (r.withPool pool).synced? = r.synced? := by
  cases wiring : r.wiring <;> simp [withPool, synced?, wiring]

end Record

namespace Graph

variable {α : Type} {g h k : Graph α} {device : ObjectId} {delta : Delta} {r : Record}

theorem touched_iff : g.Touched device ↔
    ∀ r, g.store.find? device = some r → r.FreshAt g.now := by
  simp only [Touched, Record.FreshAt, Record.synced?_eq_some_iff]
  exact forall_congr' fun r => forall_comm

/-! ## Steps -/

/-- Whether it is still the same time in a later graph, and who was heard of just now still was. -/
structure KeepsTouched (g h : Graph α) : Prop where
  now : h.now = g.now
  touched : ∀ device, g.Touched device → h.Touched device

namespace KeepsTouched

theorem refl (g : Graph α) : KeepsTouched g g := ⟨rfl, fun _ touched => touched⟩

theorem trans (first : KeepsTouched g h) (second : KeepsTouched h k) : KeepsTouched g k where
  now := second.now.trans first.now
  touched device touched := second.touched device (first.touched device touched)

instance : IsPreorder (Graph α) KeepsTouched where
  refl := refl
  trans _ _ _ := trans

theorem of_store (store : h.store = g.store) (now : h.now = g.now) : KeepsTouched g h := by
  refine ⟨now, fun device touched => ?_⟩
  rw [Touched, store, now]
  exact touched

theorem modify {id : ObjectId} {f : Record → Record}
    (each : ∀ r, g.store.find? id = some r → r.FreshAt g.now → (f r).FreshAt g.now) :
    KeepsTouched g (g.modify id f) := by
  refine ⟨rfl, fun device touched => ?_⟩
  rw [touched_iff] at touched ⊢
  intro r held
  simp only [Graph.modify, Store.find?_modify] at held
  split at held
  · rename_i here
    obtain ⟨before, there, rfl⟩ := Option.map_eq_some_iff.mp held
    exact each before there (touched before (here ▸ there))
  · exact touched r held

end KeepsTouched

theorem touch_keepsTouched (g : Graph α) (id : ObjectId) : KeepsTouched g (g.touch id) := by
  refine .modify fun r _ fresh => ?_
  split
  · split
    · exact Record.freshAt_of_refreshed (r := { r with wiring := .device g.now }) rfl
    · exact fresh
  · exact fresh

theorem touchOwner_keepsTouched (g : Graph α) (signal : ObjectId) :
    KeepsTouched g (g.touchOwner signal) := touchOwner_walks touch_keepsTouched g signal

theorem autosubscribe_keepsTouched (g : Graph α) (id : ObjectId) :
    KeepsTouched g (g.autosubscribe id) :=
  have aside := autosubscribe_aside g id
  .of_store aside.store aside.now

/-! ## New records -/

theorem establish_keepsTouched {wiring : Wiring} (g : Graph α)
    (fresh : (Record.make delta.id wiring).refresh g.now = Record.make delta.id wiring) :
    KeepsTouched g (g.establish delta wiring) := by
  have founded : KeepsTouched g (g.founded delta wiring) := by
    refine ⟨rfl, fun device touched => ?_⟩
    rw [touched_iff] at touched ⊢
    intro r held
    rw [find?_founded] at held
    split at held
    · obtain rfl := Option.some.inj held
      exact Record.freshAt_of_refreshed (recordOf_takes g delta fresh).synced
    · exact touched r held
  have touched := founded.trans (touchOwner_keepsTouched _ delta.id)
  simp only [establish]
  split
  · exact touched.trans (autosubscribe_keepsTouched _ delta.id)
  · exact touched

theorem ensureDevice_keepsTouched (id : ObjectId) :
    Attempt.Walks KeepsTouched (ensureDevice (α := α) id) := by
  intro g
  rcases ensureDevice_cases id g with ⟨e, refused⟩ | there | ⟨-, made⟩
  · simpa only [Attempt.after, refused] using .refl g
  · simpa only [Attempt.after, there] using .refl g
  · simpa only [Attempt.after, made] using establish_keepsTouched g rfl

theorem create_keepsTouched (delta : Delta) :
    Attempt.Walks KeepsTouched (create (α := α) delta) := by
  intro g
  exact create_walks_of ensureDevice_keepsTouched fun _ h resolved _ =>
    establish_keepsTouched h (refresh_of_resolve resolved)

/-! ## Known records -/

theorem afterMerge_keepsTouched (held : g.store.find? delta.id = some r) (live : r.isLive)
    (kind : r.kind = delta.kind) : KeepsTouched g (g.afterMerge r delta) := by
  have goes := afterMerge_goes held live kind
  refine ⟨goes.now, fun device touched => ?_⟩
  have merged : KeepsTouched g (g.withMerged r delta) :=
    .modify fun _ _ _ => Record.freshAt_of_refreshed (mergedRecord_takes g r delta).synced
  have noted := (merged.trans (touchOwner_keepsTouched _ delta.id)).touched device touched
  have there := (find?_touchOwner (g.withMerged r delta) delta.id).trans
    ((find?_withMerged held delta.id).trans (if_pos rfl))
  have stays := (congrArg Frame.isLive (mergedRecord_spec g r delta).1).trans live
  simp only [afterMerge]
  split
  · exact touched_noteChange noted there stays
  · exact noted

theorem upsert_keepsTouched (delta : Delta) :
    Attempt.Walks KeepsTouched (upsert (α := α) delta) := by
  intro g
  rcases upsert_cases delta g with ⟨-, same⟩ | ⟨e, refused⟩ | ⟨r, how, held, live, kind, -, merged⟩
  · have created := create_keepsTouched delta g
    simpa only [Attempt.after, same] using created
  · simpa only [Attempt.after, refused] using .refl g
  · simpa only [Attempt.after, merged] using afterMerge_keepsTouched held live kind

theorem remove_keepsTouched {how : Lifecycle} (terminal : how.status.isTerminal) (g : Graph α)
    (id : ObjectId) : KeepsTouched g (g.remove id how).1 := by
  refine removeWithin_walks .refl .trans ?_ (fun _ _ => .of_store rfl rfl) 3 g id
  intro g id r _ _
  have retired : KeepsTouched g (g.modify id fun r =>
      { r with status := how.status, terminalAt := some g.now, observedCycle := none }) :=
    .modify fun r _ _ => Record.freshAt_of_gone (by simp [Record.isLive, terminal])
  exact retired.trans (.of_store rfl rfl)

/-! ## Messages -/

theorem withPool_keepsTouched {β : Type} (signal : ObjectId) (x : Record → Attempt Pool β) :
    Attempt.Walks KeepsTouched (withPool (α := α) signal x) :=
  withPool_walks (fun _ pool => .modify fun r _ fresh =>
    fresh.congr (r.synced?_withPool pool) fun there =>
      (congrArg Frame.isLive (r.withPool_fills pool).frame).symm.trans there) x

theorem applyValue_keepsTouched (u : ValueUpdate) :
    Attempt.Walks KeepsTouched (applyValue (α := α) u) := by
  refine .bind (withPool_keepsTouched u.signal _) fun events => ?_
  cases events with
  | some events =>
      exact .bind (.change fun g => touchOwner_keepsTouched g u.signal) fun _ =>
        .change fun _ => .of_store rfl rfl
  | none => exact .pure ()

theorem handle_keepsTouched (g : Graph α) (event : NetworkEvent) :
    KeepsTouched g (g.handle event) := by
  cases event with
  | record type delta =>
      cases type with
      | announce | update => exact upsert_keepsTouched delta g
      | remove => exact remove_keepsTouched (show Lifecycle.removed.status.isTerminal from rfl) g _
      | expire => exact remove_keepsTouched (show Lifecycle.expired.status.isTerminal from rfl) g _
  | value update => exact applyValue_keepsTouched update g
  | sync device => exact touch_keepsTouched g device

/-- Whether a message is a sign of life of a device: it says so, or it is accepted and announces or
    updates the device or one of its signals, or has a value for one of these or the release of an
    instance that the signal has. -/
inductive Hears (g : Graph α) (device : ObjectId) : NetworkEvent → Prop
  | sync : Hears g device (.sync device)
  | own {type : EventType} {delta : Delta} {how : Option Lifecycle} {h : Graph α}
      (heard : type = .announce ∨ type = .update) (accepted : applyEvent type delta g = .ok how h)
      (same : delta.id = device) : Hears g device (.record type delta)
  | signal {type : EventType} {delta : Delta} {how : Option Lifecycle} {h : Graph α} {r : Record}
      (heard : type = .announce ∨ type = .update) (accepted : applyEvent type delta g = .ok how h)
      (held : h.store.find? delta.id = some r) (owned : r.device? = some device) :
      Hears g device (.record type delta)
  | value {u : ValueUpdate} {h : Graph α} {r : Record} (accepted : applyValue u g = .ok () h)
      (held : g.store.find? u.signal = some r) (owned : r.device? = some device)
      (has : u.value = none → ∃ pool, r.pool? = some pool ∧ pool.contains (u.slot.getD 0)) :
      Hears g device (.value u)

theorem Took.touched_own (took : Took delta g r) : g.Touched delta.id := by
  obtain ⟨before, takes⟩ := took.takes
  rw [touched_iff]
  intro s held
  obtain rfl := Option.some.inj (took.held.symm.trans held)
  exact Record.freshAt_of_refreshed takes.synced

theorem Took.touched_owner (took : Took delta g r) (owned : r.device? = some device) :
    g.Touched device := took.touched ▸ touched_touchOwner took.held owned

theorem release_of_contains {pool : Pool} {slot : UInt64} (there : pool.contains slot)
    (origin : ReleaseOrigin) :
    ∃ events after, Pool.release slot origin pool = .ok events after := by
  obtain ⟨i, found⟩ := Option.isSome_iff_exists.mp there
  simp only [Pool.release, Attempt.bind_apply, Attempt.current_apply, Pool.get, found,
    Attempt.demand_ok]
  cases i.isActive <;> exact ⟨_, _, rfl⟩

/-- What a value or a release does to the instances of a signal. -/
def work (u : ValueUpdate) (r : Record) : Attempt Pool (Option (List PoolEvent)) :=
  match u.value with
  | some v => some <$> sample (u.slot.getD 0) v u.time r
  | none => releaseIfHeld (u.slot.getD 0)

theorem applyValue_eq (u : ValueUpdate) : applyValue (α := α) u = (do
    match ← withPool u.signal (work u) with
    | some events =>
      Attempt.change (·.touchOwner u.signal)
      Attempt.change (·.notifyPool u.signal events)
    | none => return) := rfl

/-- Only the release of an instance that is not there is none. -/
theorem isSome_of_work {u : ValueUpdate} {pool after : Pool} {told : Option (List PoolEvent)}
    (has : u.value = none → pool.contains (u.slot.getD 0))
    (worked : work u r pool = .ok told after) : told.isSome := by
  cases given : u.value with
  | some v =>
      simp only [work, given, map_eq_pure_bind, Attempt.bind_apply] at worked
      split at worked <;> cases worked
      rfl
  | none =>
      obtain ⟨events, released, same⟩ := release_of_contains (has given) .network
      simp only [work, given, releaseIfHeld, same] at worked
      cases worked
      rfl

theorem worked_of_withPool {β : Type} {signal : ObjectId} {x : Record → Attempt Pool β} {b : β}
    (done : withPool signal x g = .ok b h) : ∃ r pool after, g.store.find? signal = some r ∧
      r.pool? = some pool ∧ x r pool = .ok b after ∧ h = g.modify signal (·.withPool after) := by
  simp only [withPool, Attempt.bind_apply, Attempt.current_apply] at done
  cases there : g.store.getLive signal .signal with
  | error e => simp [there] at done
  | ok r =>
      simp only [there, Attempt.demand_ok] at done
      cases got : r.getPool with
      | error e => simp [got] at done
      | ok pool =>
          simp only [got, Attempt.demand_ok, Attempt.within] at done
          cases worked : x r pool <;> rw [worked] at done <;> cases done
          exact ⟨r, pool, _, (Store.getLive_eq_ok_iff.mp there).1, Record.getPool_eq_ok_iff.mp got,
            worked, rfl⟩

theorem touched_of_applyValue {u : ValueUpdate} (accepted : applyValue u g = .ok () h)
    (held : g.store.find? u.signal = some r) (owned : r.device? = some device)
    (has : u.value = none → ∃ pool, r.pool? = some pool ∧ pool.contains (u.slot.getD 0)) :
    h.Touched device := by
  rw [applyValue_eq, Attempt.bind_apply] at accepted
  cases done : withPool u.signal (work u) g with
  | error e k => simp [done] at accepted
  | ok told k =>
      obtain ⟨s, pool, after, held', own, worked, rfl⟩ := worked_of_withPool done
      obtain rfl := Option.some.inj (held.symm.trans held')
      have known (none : u.value = none) : pool.contains (u.slot.getD 0) := by
        obtain ⟨pool', own', there⟩ := has none
        exact Option.some.inj (own'.symm.trans own) ▸ there
      obtain ⟨events, rfl⟩ := Option.isSome_iff_exists.mp (isSome_of_work known worked)
      have filled : (g.modify u.signal (·.withPool after)).store.find? u.signal =
          some (r.withPool after) := by
        simp only [modify, Store.find?_modify, ↓reduceIte, held, Option.map_some]
      have owner : (r.withPool after).device? = some device :=
        (r.device?_withPool after).trans owned
      simp only [done, Attempt.bind_apply, Attempt.change_apply] at accepted
      cases accepted
      exact touched_touchOwner filled owner

theorem Hears.touched {event : NetworkEvent} (hears : g.Hears device event) :
    (g.handle event).Touched device := by
  cases hears with
  | sync => exact touched_touch g device
  | @own type delta how h heard accepted same =>
      have upserted : upsert delta g = .ok how h := by
        rcases heard with rfl | rfl <;> exact accepted
      obtain ⟨r, took⟩ := took_of_accepted upserted
      simpa only [handle, Attempt.after, accepted, same] using took.touched_own
  | @signal type delta how h r heard accepted held owned =>
      have upserted : upsert delta g = .ok how h := by
        rcases heard with rfl | rfl <;> exact accepted
      obtain ⟨s, took⟩ := took_of_accepted upserted
      obtain rfl := Option.some.inj (took.held.symm.trans held)
      simpa only [handle, Attempt.after, accepted] using took.touched_owner owned
  | @value u h r accepted held owned has =>
      have touched := touched_of_applyValue accepted held owned has
      simpa only [handle, Attempt.after, accepted] using touched

/-! ## Taking in -/

/-- The messages that are taken in, at most `limit`, each with the graph that takes it. -/
def takings (g : Graph α) : Nat → List (Graph α × NetworkEvent)
  | 0 => []
  | limit + 1 =>
    match g.wire.receive with
    | (.message event, wire) =>
      ({ g with wire }, event) :: ({ g with wire }.handle event).takings limit
    | _ => []

theorem drain_keepsTouched (limit : Nat) (g : Graph α) : KeepsTouched g (g.drain limit).1 := by
  refine (drainsBy_any limit g).keeps (P := KeepsTouched g)
    (fun {h outcome wire} received kept => ?_)
    (fun {h event} _ kept => kept.trans (handle_keepsTouched h event)) (.refl g)
  have clock : wire.clock = h.wire.clock := by
    simp only [Wire.receive] at received
    split at received <;> cases received <;> rfl
  exact kept.trans (.of_store rfl clock)

/-- A device that gives a sign of life while messages are taken in has been heard of just now when
    they all are. -/
theorem touched_of_taken {limit : Nat} {event : NetworkEvent}
    (taken : (h, event) ∈ g.takings limit) (hears : h.Hears device event) :
    (g.drain limit).1.Touched device := by
  induction limit generalizing g with
  | zero => cases taken
  | succ limit ih =>
      simp only [takings] at taken
      simp only [drain]
      split at taken
      · rename_i first wire received
        simp only [received]
        rcases List.mem_cons.mp taken with here | later
        · obtain ⟨rfl, rfl⟩ := Prod.mk.inj here
          exact (drain_keepsTouched limit _).touched device hears.touched
        · exact ih later
      · cases taken

end Graph

end SignalGraph
