import SignalGraph.Proofs.RunInvariants

/-! # Elementary changes in the lives of objects

What operations do to the lives of objects, one change at a time. A record begins, is noted to have
changed, or ends, and listeners are to be told of each; all else fills records or goes on beside
them. While an operation runs, clock and cycle stand still.
-/

namespace SignalGraph

/-- What a record says of the life of its object. -/
structure Standing where
  id : ObjectId
  status : Status
  ties : Ties
  terminalAt : Option Timetag
  observedCycle : Option Nat
  deriving Repr, DecidableEq

def Record.standing (r : Record) : Standing :=
  ⟨r.id, r.status, r.wiring.ties, r.terminalAt, r.observedCycle⟩

def Notification.isOfPool : Notification → Bool
  | record _ _ => false
  | pool _ _ => true

inductive LifecycleChange where
  /-- No life changes: of instances there may be something to tell. -/
  | rest (said : List Notification)
  | fill (id : ObjectId) (f : Record → Record)
  | begin (r : Record)
  | change (id : ObjectId)
  | finish (id : ObjectId) (how : Lifecycle)

namespace LifecycleChange

variable {α : Type}

def store (g : Graph α) : LifecycleChange → Store
  | rest _ => g.store
  | fill id f => g.store.modify id f
  | begin r => (g.store.discard r.id).insert r
  | change id => g.store.modify id ({ · with status := .modified })
  | finish id how => (g.retire id how).store

def said : LifecycleChange → List Notification
  | rest said => said
  | fill _ _ => []
  | begin r => [.record r.id .added]
  | change id => [.record id .modified]
  | finish id how => [.record id how]

/-- What has been made sure of beforehand. -/
def Guard (g : Graph α) : LifecycleChange → Prop
  | rest said => ∀ note ∈ said, note.isOfPool
  | fill id f => ∀ r, g.store.find? id = some r → (f r).standing = r.standing
  | begin r => g.store.IsVacant r.id ∧ r.status = .new ∧ r.terminalAt = none ∧
      r.observedCycle = none
  | change id => ∃ r, g.store.find? id = some r ∧ r.isLive
  | finish id how => how.status.isTerminal ∧ ∃ r, g.store.find? id = some r ∧ r.isLive

/-- Whether a change is what happened between two graphs. -/
structure Does (t : LifecycleChange) (g h : Graph α) : Prop where
  guard : t.Guard g
  store : h.store = t.store g
  notifications : h.notifications = g.notifications ++ t.said
  config : h.config = g.config
  cycle : h.cycle = g.cycle
  now : h.now = g.now

end LifecycleChange

/-- A chain of changes from a graph to another, and what listeners are to be told of them. -/
inductive LifecycleChanges {α : Type} : Graph α → List Notification → Graph α → Prop
  | done (g : Graph α) : LifecycleChanges g [] g
  | next {t : LifecycleChange} {g h k : Graph α} {more : List Notification} (does : t.Does g h)
      (rest : LifecycleChanges h more k) : LifecycleChanges g (t.said ++ more) k

namespace LifecycleChanges

variable {α : Type} {g h k : Graph α} {said more : List Notification} {t : LifecycleChange}

theorem one (does : t.Does g h) : LifecycleChanges g t.said h :=
  List.append_nil t.said ▸ LifecycleChanges.next does (.done h)

theorem trans (first : LifecycleChanges g said h) (second : LifecycleChanges h more k) :
    LifecycleChanges g (said ++ more) k := by
  induction first with
  | done g => exact second
  | next does _ ih => exact List.append_assoc .. ▸ .next does (ih second)

theorem notifications (changes : LifecycleChanges g said h) :
    h.notifications = g.notifications ++ said := by
  induction changes with
  | done g => exact (List.append_nil _).symm
  | next does _ ih => rw [ih, does.notifications, List.append_assoc]

theorem news_eq (changes : LifecycleChanges g said h) : g.news h = said := by
  rw [Graph.news, changes.notifications, List.drop_left]

theorem config (changes : LifecycleChanges g said h) : h.config = g.config := by
  induction changes with
  | done g => rfl
  | next does _ ih => exact ih.trans does.config

theorem cycle (changes : LifecycleChanges g said h) : h.cycle = g.cycle := by
  induction changes with
  | done g => rfl
  | next does _ ih => exact ih.trans does.cycle

theorem now (changes : LifecycleChanges g said h) : h.now = g.now := by
  induction changes with
  | done g => rfl
  | next does _ ih => exact ih.trans does.now

end LifecycleChanges

/-- Whether a chain of changes leads from a graph to another. -/
def Graph.Goes {α : Type} (g h : Graph α) : Prop := ∃ said, LifecycleChanges g said h

namespace Graph

variable {α σ : Type} {g h k : Graph α}

namespace Goes

theorem refl (g : Graph α) : Goes g g := ⟨[], .done g⟩

theorem trans (first : Goes g h) (second : Goes h k) : Goes g k := by
  obtain ⟨said, before⟩ := first
  obtain ⟨more, after⟩ := second
  exact ⟨said ++ more, before.trans after⟩

instance : IsPreorder (Graph α) Goes where
  refl := refl
  trans _ _ _ := trans

theorem foldl {β : Type} {f : Graph α → β → Graph α} (items : List β)
    (each : ∀ g b, Goes g (f g b)) (g : Graph α) : Goes g (items.foldl f g) :=
  foldl_walks items each g

theorem changes (goes : Goes g h) : LifecycleChanges g (g.news h) h := by
  obtain ⟨said, changes⟩ := goes
  exact changes.news_eq ▸ changes

theorem cycle (goes : Goes g h) : h.cycle = g.cycle := goes.changes.cycle

theorem now (goes : Goes g h) : h.now = g.now := goes.changes.now

theorem config (goes : Goes g h) : h.config = g.config := goes.changes.config

theorem fill {id : ObjectId} {f : Record → Record}
    (stands : ∀ r, g.store.find? id = some r → (f r).standing = r.standing) :
    Goes g (g.modify id f) :=
  ⟨_, .one (t := .fill id f) ⟨stands, rfl, (List.append_nil _).symm, rfl, rfl, rfl⟩⟩

end Goes

theorem IsAside.goes (aside : IsAside g h) : Goes g h :=
  ⟨[], .one (t := .rest []) ⟨fun _ member => absurd member List.not_mem_nil, aside.store,
    aside.notifications.trans (List.append_nil _).symm, aside.config, aside.cycle, aside.now⟩⟩

end Graph

/-! ## Attempts -/

namespace Attempt

variable {α β γ : Type}

/-- Whether an attempt is a chain of changes, also where it is refused. -/
def Goes (x : Attempt (Graph α) β) : Prop := ∀ g : Graph α, g.Goes (x.after g)

namespace Goes

variable {x : Attempt (Graph α) β} {f : β → Attempt (Graph α) γ}

theorem bind (first : Goes x) (rest : ∀ b, Goes (f b)) : Goes (x >>= f) := Walks.bind first rest

theorem pure (b : β) : Goes (Pure.pure b : Attempt (Graph α) β) := Walks.pure b

theorem change {f : Graph α → Graph α} (each : ∀ g : Graph α, g.Goes (f g)) :
    Goes (Attempt.change f) := each

end Goes

end Attempt

/-! ## Fillings -/

namespace Record

theorem standing_withWiring (r : Record) {wiring : Wiring} (ties : wiring.ties = r.wiring.ties) :
    ({ r with wiring } : Record).standing = r.standing :=
  congrArg (Standing.mk r.id r.status · r.terminalAt r.observedCycle) ties

theorem standing_withPool (r : Record) (pool : Pool) : (r.withPool pool).standing = r.standing := by
  simp only [withPool]
  split
  · rename_i wiring
    exact r.standing_withWiring (wiring ▸ rfl)
  · rfl

theorem standing_syncPool (r : Record) (config : Config) :
    (r.syncPool config).standing = r.standing := by
  simp only [syncPool]
  split
  · rfl
  · exact r.standing_withPool _

theorem standing_modifySlot (r : Record) (location : SlotLocation) (f : Table → Table) :
    (r.modifySlot location f).standing = r.standing := by
  simp only [modifySlot]
  split
  · rename_i wiring
    exact r.standing_withWiring (by simp only [wiring, Wiring.ties, map_signal_modify])
  · rename_i wiring
    exact r.standing_withWiring (by simp only [wiring, Wiring.ties, signal_modify])
  · rfl

theorem standing_applySlotDiffs (r : Record) (slots : List SlotDiff) :
    (r.applySlotDiffs slots).1.standing = r.standing := by
  refine List.foldlRecOn slots _ (motive := fun x : Record × Bool => x.1.standing = r.standing)
    rfl ?_
  rintro ⟨s, changed⟩ stands diff -
  simp only
  split
  · exact stands
  · exact (s.standing_modifySlot _ _).trans stands

theorem standing_commitStaged (r : Record) : r.commitStaged.standing = r.standing := by
  have ties : r.commitStaged.wiring.ties = r.wiring.ties :=
    congrArg Frame.ties r.frame_commitStaged
  have rest : r.commitStaged.id = r.id ∧ r.commitStaged.status = r.status ∧
      r.commitStaged.terminalAt = r.terminalAt ∧
      r.commitStaged.observedCycle = r.observedCycle := by
    cases wiring : r.wiring <;> simp [commitStaged, modifySlots, wiring]
  obtain ⟨id, status, terminalAt, observedCycle⟩ := rest
  simp only [standing, id, status, ties, terminalAt, observedCycle]

end Record

namespace Graph

variable {α σ : Type} {g h : Graph α} {delta : Delta}

theorem recordOf_standing (g : Graph α) (delta : Delta) (wiring : Wiring) :
    (g.recordOf delta wiring).standing = ⟨delta.id, .new, wiring.ties, none, none⟩ :=
  (Record.standing_syncPool _ _).trans (Record.standing_applySlotDiffs _ _)

theorem mergedRecord_standing (g : Graph α) (r : Record) (delta : Delta) :
    (g.mergedRecord r delta).1.standing = r.standing := by
  have slots := Record.standing_applySlotDiffs
    { r with properties := (r.properties.applyDiff delta.diff).1 } delta.slots
  simp only [mergedRecord]
  generalize (Record.applySlotDiffs _ delta.slots).1 = s at slots
  refine (Record.standing_syncPool _ _).trans (Eq.trans ?_ slots)
  split
  · rename_i wiring
    exact s.standing_withWiring (wiring ▸ rfl)
  · rename_i wiring
    exact s.standing_withWiring (wiring ▸ rfl)
  · rfl

theorem touch_goes (g : Graph α) (id : ObjectId) : Goes g (g.touch id) := by
  refine .fill ?_
  intro r _
  split
  · rename_i wiring
    split
    · exact r.standing_withWiring (wiring ▸ rfl)
    · rfl
  · rfl

theorem touchOwner_goes (g : Graph α) (signal : ObjectId) : Goes g (g.touchOwner signal) :=
  touchOwner_walks touch_goes g signal

theorem notifyPool_goes (g : Graph α) (signal : ObjectId) (events : List PoolEvent) :
    Goes g (g.notifyPool signal events) := by
  refine ⟨_, .one (t := .rest (events.map (.pool signal))) ⟨?_, rfl, rfl, rfl, rfl, rfl⟩⟩
  intro note member
  obtain ⟨event, -, rfl⟩ := List.mem_map.mp member
  rfl

theorem withPool_goes {β : Type} (signal : ObjectId) (x : Record → Attempt Pool β) :
    Attempt.Goes (withPool (α := α) signal x) :=
  withPool_walks (fun _ _ => .fill fun r _ => r.standing_withPool _) x

theorem withPoolEvents_goes (signal : ObjectId) (x : Record → Attempt Pool (List PoolEvent)) :
    Attempt.Goes (withPoolEvents (α := α) signal x) :=
  .bind (withPool_goes signal x) fun events => .change fun g => g.notifyPool_goes signal events

theorem applyValue_goes (u : ValueUpdate) : Attempt.Goes (applyValue (α := α) u) := by
  refine .bind (withPool_goes u.signal _) ?_
  intro events
  cases events with
  | some events =>
      exact .bind (.change fun g => touchOwner_goes g u.signal) fun _ =>
        .change fun g => g.notifyPool_goes u.signal events
  | none => exact .pure ()

theorem editSlot_goes {β : Type} (map : ObjectId) (location : SlotLocation) (x : Attempt Table β) :
    Attempt.Goes (editSlot (α := α) map location x) :=
  editSlot_walks (fun _ _ => .fill fun r _ => r.standing_modifySlot location _) x

theorem editProperties_goes {β : Type} (id : ObjectId) (x : Attempt Table β) :
    Attempt.Goes (editProperties (α := α) id x) :=
  editProperties_walks fun _ => .fill fun _ _ => rfl

theorem send_goes (dest : Destination) (delta : Delta) :
    Attempt.Goes (send (α := α) dest delta) := by
  intro g
  simp only [Attempt.after, send, Wire.send, Wire.takeFailure]
  cases g.wire.failingSends <;> exact IsAside.goes ⟨⟨rfl, rfl, rfl⟩, rfl, rfl⟩

theorem push_goes (id : ObjectId) : Attempt.Goes (push (α := α) id) :=
  push_walks send_goes fun _ => .fill fun r _ => r.standing_commitStaged

/-! ## Beginnings -/

theorem begins {r : Record} (vacant : g.store.IsVacant r.id)
    (standing : r.standing = ⟨r.id, .new, r.wiring.ties, none, none⟩) :
    Goes g (({ g with store := g.store.discard r.id } : Graph α).insert r) :=
  ⟨_, .one (t := .begin r) ⟨⟨vacant, congrArg Standing.status standing,
    congrArg Standing.terminalAt standing, congrArg Standing.observedCycle standing⟩,
    rfl, rfl, rfl, rfl, rfl⟩⟩

theorem founded_goes (vacant : g.store.IsVacant delta.id) (wiring : Wiring) :
    Goes g (g.founded delta wiring) := by
  have standing := recordOf_standing g delta wiring
  have id : (g.recordOf delta wiring).id = delta.id := congrArg Standing.id standing
  have ties : (g.recordOf delta wiring).wiring.ties = wiring.ties :=
    congrArg Standing.ties standing
  have begun := begins (r := g.recordOf delta wiring) (id ▸ vacant) (by rw [standing, id, ties])
  rwa [id] at begun

theorem establish_goes (vacant : g.store.IsVacant delta.id) (wiring : Wiring) :
    Goes g (g.establish delta wiring) := by
  have touched := (founded_goes vacant wiring).trans (touchOwner_goes _ delta.id)
  simp only [establish]
  split
  · exact touched.trans (autosubscribe_aside _ delta.id).goes
  · exact touched

theorem ensureDevice_goes (id : ObjectId) : Attempt.Goes (ensureDevice (α := α) id) := by
  intro g
  rcases ensureDevice_cases id g with ⟨e, refused⟩ | there | ⟨vacant, made⟩
  · simpa only [Attempt.after, refused] using .refl g
  · simpa only [Attempt.after, there] using .refl g
  · simpa only [Attempt.after, made] using establish_goes vacant (.device g.now)

theorem create_goes (vacant : g.store.IsVacant delta.id) : Goes g ((create delta).after g) :=
  create_walks_of ensureDevice_goes fun wiring _ _ resolves =>
    establish_goes (resolves.vacant vacant) wiring

/-! ## Changes -/

theorem noteChange_goes (live : g.store.HasLive delta.id delta.kind) :
    Goes g (g.noteChange delta) := by
  obtain ⟨r, held, -, live⟩ := live
  have noted : Goes g ((g.modify delta.id ({ · with status := .modified })).notify delta.id
      .modified) :=
    ⟨_, .one (t := .change delta.id) ⟨⟨r, held, live⟩, rfl, rfl, rfl, rfl, rfl⟩⟩
  simp only [noteChange]
  split
  · exact noted.trans (autosubscribe_aside _ delta.id).goes
  · exact noted

theorem withMerged_goes {r : Record} (held : g.store.find? delta.id = some r) :
    Goes g (g.withMerged r delta) :=
  .fill fun _ held' => Option.some.inj (held.symm.trans held') ▸ mergedRecord_standing g r delta

theorem afterMerge_goes {r : Record} (held : g.store.find? delta.id = some r) (live : r.isLive)
    (kind : r.kind = delta.kind) : Goes g (g.afterMerge r delta) := by
  have merged := (withMerged_goes held).trans (touchOwner_goes _ delta.id)
  simp only [afterMerge]
  split
  · refine merged.trans (noteChange_goes ?_)
    have outline := (touchOwner_leads (g.withMerged r delta) delta.id).sameOutline.outline delta.id
    have there : g.store.HasLive delta.id delta.kind := ⟨r, held, kind, live⟩
    exact (there.congr ((withMerged_sameOutline held).outline delta.id)).congr outline
  · exact merged

theorem upsert_goes (delta : Delta) : Attempt.Goes (upsert (α := α) delta) := by
  intro g
  rcases upsert_cases delta g with ⟨vacant, same⟩ | ⟨e, refused⟩ |
    ⟨r, how, held, live, kind, -, merged⟩
  · have created := create_goes vacant
    simpa only [Attempt.after, same] using created
  · simpa only [Attempt.after, refused] using .refl g
  · simpa only [Attempt.after, merged] using afterMerge_goes held live kind

/-! ## Ends -/

theorem retire_goes {id : ObjectId} {how : Lifecycle} (terminal : how.status.isTerminal) {r : Record}
    (held : g.store.find? id = some r) (live : r.isLive) : Goes g (g.retire id how) :=
  ⟨_, .one (t := .finish id how) ⟨⟨terminal, r, held, live⟩, rfl, rfl, rfl, rfl, rfl⟩⟩

theorem remove_goes {how : Lifecycle} (terminal : how.status.isTerminal) (g : Graph α)
    (id : ObjectId) : Goes g (g.remove id how).1 :=
  removeWithin_walks .refl .trans (fun _ _ _ held live => retire_goes terminal held live)
    (fun _ _ => IsAside.goes ⟨⟨rfl, rfl, rfl⟩, rfl, rfl⟩) 3 g id

/-! ## What comes -/

theorem applyEvent_goes (type : EventType) (delta : Delta) :
    Attempt.Goes (applyEvent (α := α) type delta) := by
  cases type with
  | announce | update => exact upsert_goes delta
  | remove => exact fun g => remove_goes (show Lifecycle.removed.status.isTerminal from rfl) g _
  | expire => exact fun g => remove_goes (show Lifecycle.expired.status.isTerminal from rfl) g _

theorem handle_goes (g : Graph α) (event : NetworkEvent) : Goes g (g.handle event) := by
  cases event with
  | record type delta => exact applyEvent_goes type delta g
  | value update => exact applyValue_goes update g
  | sync device => exact touch_goes g device

theorem newMap_goes (sources : List ObjectId) (destination : ObjectId) (g : Graph α) :
    Goes g ((newMap sources destination).after g) := by
  obtain ⟨localCounter, same | ⟨id, properties, -, free, -, made⟩⟩ :=
    newMap_cases sources destination g
  all_goals
    have counted : Goes g { g with localCounter } := IsAside.goes ⟨⟨rfl, rfl, rfl⟩, rfl, rfl⟩
  · exact same ▸ counted
  · -- The identity is that of no record, so that the change discards nothing.
    have begun := begins (g := { g with localCounter })
      (r := localMap id sources destination properties) (Store.isVacant_of_free free) rfl
    simp only [show (localMap id sources destination properties).id = id from rfl,
      Store.discard_of_free free] at begun
    exact made ▸ counted.trans begun

/-- A call, but for the network going on by itself. -/
theorem call_goes (g : Graph α) (c : Call α) :
    Goes g (g.call c) ∨ ∃ wire, g.call c = { g with wire } := by
  cases c with
  | network clock arrivals failingSends failingReceives => exact .inr ⟨_, rfl⟩
  | apply type delta => exact .inl (applyEvent_goes type delta g)
  | remove id => exact .inl (remove_goes rfl g id)
  | newMap sources destination => exact .inl (newMap_goes sources destination g)
  | edit id action => exact .inl (editProperties_goes id action g)
  | editSlot map location action => exact .inl (editSlot_goes map location action g)
  | push id => exact .inl (push_goes id g)
  | reserve signal n => exact .inl (withPool_goes signal (fun _ => Pool.reserve n) g)
  | reserveIds signal ids => exact .inl (withPool_goes signal (fun _ => Pool.reserveIds ids) g)
  | update signal slot value =>
      exact .inl (withPoolEvents_goes signal (sample slot value g.now) g)
  | release signal slot =>
      exact .inl (withPoolEvents_goes signal (fun _ => Pool.release slot .here) g)
  | drop signal slot => exact .inl (withPoolEvents_goes signal (fun _ => Pool.remove slot) g)
  | tag signal slot tag => exact .inl (withPool_goes signal (fun _ => Pool.setTag slot tag) g)
  | subscribe target categories lease =>
      exact .inl (subscribe_aside g target categories lease).goes
  | unsubscribe target => exact .inl (unsubscribe_aside g target).goes
  | listen | unlisten | defer => exact .inl (IsAside.goes ⟨⟨rfl, rfl, rfl⟩, rfl, rfl⟩)

/-! ## Polls -/

theorem drain_goes (limit : Nat) (g : Graph α) : Goes g (g.drain limit).1 := by
  have clock (w : Wire) : w.receive.2.clock = w.clock := by
    simp only [Wire.receive]
    cases w.failingReceives with
    | zero => cases w.inbox <;> rfl
    | succ n => rfl
  induction limit generalizing g with
  | zero => exact .refl g
  | succ limit ih =>
      have received : Goes g { g with wire := g.wire.receive.2 } :=
        IsAside.goes ⟨⟨rfl, rfl, rfl⟩, rfl, clock g.wire⟩
      simp only [drain]
      split
      · rename_i event wire same
        rw [same] at received
        exact received.trans ((handle_goes _ event).trans (ih _))
      · rename_i outcome wire none same
        rw [same] at received
        exact received

theorem expireDevices_goes (g : Graph α) : Goes g g.expireDevices := by
  have terminal : Lifecycle.expired.status.isTerminal := rfl
  simp only [expireDevices]
  split
  · exact .refl g
  · exact .foldl _ (fun h (r : Record) => remove_goes terminal h r.id) g

theorem intake_goes (g : Graph α) : Goes g.beginPoll g.intake :=
  (drain_goes _ _).trans ((expireDevices_goes _).trans (renewSubscriptions_aside _).goes)

end Graph

end SignalGraph
