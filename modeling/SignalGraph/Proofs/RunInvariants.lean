import SignalGraph.Proofs.Upsert

/-! # What runs keep

Every call and every poll is a chain of elementary changes to records, broken only where a poll
takes the notifications out to tell them. What these changes keep, runs keep.
-/

namespace SignalGraph

def RecordChange.IsAny (_ : RecordChange) : Prop := True

namespace Graph

variable {α σ : Type} {g h k : Graph α}

namespace Leads

variable {sort : RecordChange → Prop}

theorem any (leads : Leads sort g h) : Leads RecordChange.IsAny g h := leads.mono fun _ _ => trivial

theorem changes (leads : Leads sort g h) : RecordChanges sort g (g.news h) h := by
  obtain ⟨said, changes⟩ := leads
  exact changes.news_eq ▸ changes

end Leads

/-! ## Removal -/

/-- What marking a live record as gone keeps, and dropping its subscription when all that depends on
    it has gone too, a removal keeps. -/
theorem removeWithin_walks_of {R : Graph α → Graph α → Prop} {how : Lifecycle}
    (refl : ∀ g, R g g) (trans : ∀ {g h k}, R g h → R h k → R g k)
    (retire : ∀ g id r, g.store.find? id = some r → r.isLive → R g (g.retire id how))
    (drop : ∀ {g h id}, R (g.retire id how) h → R g h → R g (h.dropSubscription id))
    (depth : Nat) (g : Graph α) (id : ObjectId) : R g (removeWithin depth g id how).1 := by
  induction depth generalizing g id with
  | zero => exact refl g
  | succ depth ih =>
      simp only [removeWithin]
      split
      · exact refl g
      · split
        · exact refl g
        · rename_i r held live
          have begun := retire g id r held (by simpa using live)
          have within : R (g.retire id how) (((g.retire id how).store.dependents id r.kind).foldl
              (fun g dependent => (removeWithin depth g dependent how).1) (g.retire id how)) :=
            List.foldlRecOn _ _ (motive := R (g.retire id how)) (refl _)
              fun h sofar dependent _ => trans sofar (ih h dependent)
          split
          · exact drop within (trans begun within)
          · exact trans begun within

/-- What marking one live record as gone keeps, a removal with all that it takes along keeps. -/
theorem removeWithin_walks {R : Graph α → Graph α → Prop} {how : Lifecycle}
    (refl : ∀ g, R g g) (trans : ∀ {g h k}, R g h → R h k → R g k)
    (retire : ∀ g id r, g.store.find? id = some r → r.isLive → R g (g.retire id how))
    (drop : ∀ g id, R g (g.dropSubscription id)) (depth : Nat) (g : Graph α) (id : ObjectId) :
    R g (removeWithin depth g id how).1 :=
  removeWithin_walks_of refl trans retire (fun _ sofar => trans sofar (drop _ _)) depth g id

theorem removeWithin_keeps {R : Graph α → Graph α → Prop} {how : Lifecycle}
    (quiet : ∀ {g h}, IsQuiet g h → R g h) (trans : ∀ {g h k}, R g h → R h k → R g k)
    (retire : ∀ g id, R g (g.retire id how)) (depth : Nat) (g : Graph α) (id : ObjectId) :
    R g (removeWithin depth g id how).1 :=
  removeWithin_walks (fun g => quiet (.refl g)) trans (fun g id _ _ _ => retire g id)
    (fun _ _ => quiet ⟨rfl, rfl, rfl⟩) depth g id

/-- Whether a graph comes from another without a new record being told of. -/
def MakesNone (g h : Graph α) : Prop :=
  h.config = g.config ∧ ∃ said, h.notifications = g.notifications ++ said ∧ created said = []

theorem IsQuiet.makesNone (quiet : IsQuiet g h) : MakesNone g h :=
  ⟨quiet.config, [], quiet.notifications.trans (List.append_nil _).symm, rfl⟩

theorem MakesNone.trans : MakesNone g h → MakesNone h k → MakesNone g k := by
  rintro ⟨config, said, notifications, none⟩ ⟨config', more, notifications', none'⟩
  refine ⟨config'.trans config, said ++ more, ?_, ?_⟩
  · rw [notifications', notifications, List.append_assoc]
  · rw [created_append, none, none', List.append_nil]

theorem retire_makesNone {how : Lifecycle} (terminal : how.status.isTerminal) (g : Graph α)
    (id : ObjectId) : MakesNone g (g.retire id how) := by
  refine ⟨rfl, [.record id how], rfl, ?_⟩
  cases how with
  | added | modified => exact Bool.noConfusion terminal
  | removed | expired => rfl

theorem remove_leads {how : Lifecycle} (terminal : how.status.isTerminal) (g : Graph α)
    (id : ObjectId) : Leads RecordChange.IsPlain g (g.remove id how).1 := by
  obtain ⟨config, said, notifications, none⟩ := removeWithin_keeps (R := MakesNone)
    IsQuiet.makesNone MakesNone.trans (retire_makesNone terminal) 3 g id
  exact .one (d := .remove id how) trivial ⟨terminal, rfl, config, notifications, none⟩

/-! ## Events -/

theorem upsert_leads (delta : Delta) (g : Graph α) :
    Leads RecordChange.IsAny g ((upsert delta).after g) := by
  have upserts := upsert_upserts delta g
  simp only [Attempt.after]
  generalize upsert delta g = result at upserts
  cases upserts with
  | refused e => exact .refl g
  | created vacant resolves =>
      rename_i wiring h
      have founded := founded_does (resolves.vacant vacant)
        (resolves.leads.config.symm ▸ resolves.fits)
        (resolves.leads.config.symm ▸ resolves.stocked)
      exact resolves.leads.any.trans (.trans (.one trivial founded)
        (establish_leads h delta wiring).any)
  | merged held live kind restates how =>
      exact .trans (.one trivial (withMerged_does held live kind restates))
        (afterMerge_leads held live).any

theorem applyEvent_leads (type : EventType) (delta : Delta) :
    Attempt.Leads RecordChange.IsAny (applyEvent (α := α) type delta) := by
  intro g
  cases type with
  | announce | update => exact upsert_leads delta g
  | remove | expire => exact (remove_leads rfl g delta.id).any

theorem handle_leads (g : Graph α) (event : NetworkEvent) :
    Leads RecordChange.IsAny g (g.handle event) := by
  cases event with
  | record type delta => exact applyEvent_leads type delta g
  | value update => exact (applyValue_leads update g).any
  | sync device => exact (touch_leads g device).any

/-! ## Edits -/

theorem send_leads (dest : Destination) (delta : Delta) :
    Attempt.Leads RecordChange.IsFilling (send (α := α) dest delta) := by
  intro g
  simp only [Attempt.after, send]
  cases g.wire.send dest delta with
  | mk sent wire => cases sent <;> exact .keep rfl rfl rfl

theorem commit_leads (g : Graph α) (id : ObjectId) :
    Leads RecordChange.IsAny g (g.modify id Record.commitStaged) :=
  .silent (d := .commit id) trivial trivial rfl rfl rfl rfl

theorem push_leads (id : ObjectId) : Attempt.Leads RecordChange.IsAny (push (α := α) id) :=
  push_walks (fun dest delta g => (send_leads dest delta g).any) fun g => commit_leads g id

theorem edit_leads (g : Graph α) (id : ObjectId) (action : Attempt Table Unit) :
    Leads RecordChange.IsAny g ((editProperties id action).after g) :=
  editProperties_walks (fun _ =>
    .silent (d := .edit id action.after) trivial trivial rfl rfl rfl rfl) g

/-! ## New maps -/

theorem freeCount?_free {count free : UInt32} {tries : Nat}
    (found : g.freeCount? count tries = some free) : g.store.find? (g.localId free) = none := by
  induction tries generalizing count with
  | zero => simp [freeCount?] at found
  | succ tries ih =>
      simp only [freeCount?] at found
      split at found
      · exact ih found
      · rename_i absent
        rw [← Option.some.inj found]
        simpa [Store.contains] using absent

/-- An identity made here is that of no record. -/
theorem nextLocalId_spec (g : Graph α) :
    (∃ e, nextLocalId g = .error e g) ∨
      ∃ id localCounter, nextLocalId g = .ok id { g with localCounter } ∧
        g.store.find? id = none := by
  simp only [nextLocalId, Attempt.bind_apply, Attempt.current_apply]
  cases found : g.freeCount? g.localCounter UInt32.size with
  | none => exact .inl ⟨_, rfl⟩
  | some free => exact .inr ⟨g.localId free, free, rfl, freeCount?_free found⟩

def localMap (id : ObjectId) (sources : List ObjectId) (destination : ObjectId)
    (properties : Table) : Record :=
  { Record.make id (.map (sources.map Slot.bare) (Slot.bare destination) true) with properties }

theorem insert_localMap_does {sources : List ObjectId} {destination id : ObjectId}
    (check : g.store.checkMapEnds g.config sources destination = .ok ())
    (free : g.store.find? id = none) (properties : Table) :
    (RecordChange.found (localMap id sources destination properties)).Does g [.record id .added]
      (g.insert (localMap id sources destination properties)) := by
  obtain ⟨some, few, live⟩ := Store.checkMapEnds_eq_ok_iff.mp check
  have ties := ties_map_bare sources destination true
  refine ⟨⟨rfl, Store.isVacant_of_free free, ⟨?_, ?_⟩, Record.stocked_of_none rfl⟩, ?_, rfl, rfl, rfl⟩
  · intro need member
    obtain ⟨signal, among, rfl⟩ := List.mem_map.mp (ties ▸ member)
    exact live signal among
  · exact ties ▸ ⟨some, few⟩
  · exact congrArg (Store.insert · (localMap id sources destination properties))
      (Store.discard_of_free free).symm

/-- The ends of a new map are staged by two edits of a table that is empty. -/
theorem stageEnds_eq_after {sources : List ObjectId} {destination : ObjectId} {properties : Table}
    (staged : stageEnds sources destination = .ok properties) :
    properties = (Table.set (.wellKnown .destination) (.ofId destination)).after
      ((Table.set (.wellKnown .sources) (.ofIds sources)).after .empty) := by
  simp only [stageEnds, Attempt.bind_apply] at staged
  unfold Attempt.after
  cases one : Table.set (.wellKnown .sources) (.ofIds sources) .empty with
  | error e t => simp [one] at staged
  | ok _ t =>
      simp only [one] at staged
      cases two : Table.set (.wellKnown .destination) (.ofId destination) t with
      | error e u => simp [two] at staged
      | ok _ u =>
          simp only [two] at staged
          exact (Except.ok.inj staged).symm

/-- Who asks for a map moves at most the count on, unless the map is made, and then between live
    signals and under an identity that no record has. -/
theorem newMap_cases (sources : List ObjectId) (destination : ObjectId) (g : Graph α) :
    ∃ localCounter, (newMap sources destination).after g = { g with localCounter } ∨
      ∃ id properties, g.store.checkMapEnds g.config sources destination = .ok () ∧
        g.store.find? id = none ∧ stageEnds sources destination = .ok properties ∧
        (newMap sources destination).after g =
          ({ g with localCounter } : Graph α).insert
            (localMap id sources destination properties) := by
  have unmoved : g = { g with localCounter := g.localCounter } := rfl
  simp only [newMap, Attempt.after_bind, Attempt.current_apply]
  cases check : g.store.checkMapEnds g.config sources destination with
  | error e => exact ⟨_, .inl unmoved⟩
  | ok _ =>
      simp only [Attempt.demand_ok]
      split
      · exact ⟨_, .inl unmoved⟩
      · rw [Attempt.after_bind]
        rcases nextLocalId_spec g with ⟨e, refused⟩ | ⟨id, localCounter, made, free⟩
        · simp only [refused]
          exact ⟨_, .inl unmoved⟩
        · simp only [made, Attempt.after_bind]
          refine ⟨localCounter, ?_⟩
          cases staged : stageEnds sources destination with
          | error e => exact .inl rfl
          | ok properties => exact .inr ⟨id, properties, trivial, free, rfl, rfl⟩

theorem newMap_leads (sources : List ObjectId) (destination : ObjectId) (g : Graph α) :
    Leads RecordChange.IsAny g ((newMap sources destination).after g) := by
  obtain ⟨localCounter, same | ⟨id, properties, check, free, -, made⟩⟩ :=
    newMap_cases sources destination g
  all_goals have counted : Leads RecordChange.IsFilling g { g with localCounter } := .keep rfl rfl rfl
  · exact same ▸ counted.any
  · exact made ▸ counted.any.trans
      (.one trivial (insert_localMap_does (g := { g with localCounter }) check free properties))

/-! ## Calls -/

/-- A call that does not write to the properties of records. -/
theorem call_plain (g : Graph α) (c : Call α) (plain : c.IsPlain) :
    Leads RecordChange.IsPlain g (g.call c) := by
  cases c with
  | network | listen | unlisten | defer =>
      refine (IsQuiet.leads ?_).plain
      exact ⟨rfl, rfl, rfl⟩
  | remove id => exact remove_leads rfl g id
  | editSlot map location action => exact (editSlot_leads map location action g).plain
  | reserve signal n => exact (withPool_leads signal (fun _ => Pool.reserve_calls n) g).plain
  | reserveIds signal ids =>
      exact (withPool_leads signal (fun _ => Pool.reserveIds_calls ids) g).plain
  | update signal slot value =>
      exact (withPoolEvents_leads signal (Pool.sample_calls slot value g.now) g).plain
  | release signal slot =>
      exact (withPoolEvents_leads signal (fun _ => Pool.release_calls slot .here) g).plain
  | drop signal slot =>
      exact (withPoolEvents_leads signal (fun _ => Pool.remove_calls slot) g).plain
  | tag signal slot tag =>
      exact (withPool_leads signal (fun _ => Pool.setTag_calls slot tag) g).plain
  | subscribe target categories lease =>
      exact (subscribe_quiet g target categories lease).leads.plain
  | unsubscribe target => exact (unsubscribe_quiet g target).leads.plain
  | apply | newMap | edit | push => exact plain.elim

theorem call_leads (g : Graph α) (c : Call α) : Leads RecordChange.IsAny g (g.call c) := by
  by_cases plain : c.IsPlain
  · exact (call_plain g c plain).any
  · cases c with
    | apply type delta => exact applyEvent_leads type delta g
    | newMap sources destination => exact newMap_leads sources destination g
    | edit id action => exact edit_leads g id action
    | push id => exact push_leads id g
    | _ => exact absurd trivial plain

/-! ## Polls -/

theorem drain_leads (limit : Nat) (g : Graph α) : Leads RecordChange.IsAny g (g.drain limit).1 := by
  induction limit generalizing g with
  | zero => exact .refl g
  | succ limit ih =>
      have received (wire : Wire) : IsQuiet g { g with wire } := ⟨rfl, rfl, rfl⟩
      simp only [drain]
      split
      · exact (received _).leads.any.trans ((handle_leads _ _).trans (ih _))
      · exact (received _).leads.any

theorem expireDevices_leads (g : Graph α) : Leads RecordChange.IsPlain g g.expireDevices := by
  have terminal : Lifecycle.expired.status.isTerminal := rfl
  simp only [expireDevices]
  split
  · exact .refl g
  · exact .foldl _ (fun h (r : Record) => remove_leads terminal h r.id) g

theorem intake_leads (g : Graph α) : Leads RecordChange.IsAny g g.intake :=
  have began : Leads RecordChange.IsFilling g g.beginPoll := .keep rfl rfl rfl
  began.any.trans ((drain_leads _ _).trans ((expireDevices_leads _).any.trans
    (renewSubscriptions_quiet _).leads.any))

/-- The graph with its notifications taken out to be told. -/
def unsaid (g : Graph α) : Graph α := { g with notifications := [] }

theorem tell_aside (host : Host α σ) (s : σ) (g : Graph α) (note : Notification) :
    IsAside g (tell host s g note).2 := by
  simp only [tell]
  split
  · exact .refl g
  · refine List.foldlRecOn _ _ (motive := fun x : σ × Graph α => IsAside g x.2) (.refl g) ?_
    intro x aside l _
    exact aside.trans (.foldl (f := defer) _ (fun g action => ⟨⟨rfl, rfl, rfl⟩, rfl, rfl⟩) _)

theorem tellAll_aside (host : Host α σ) (notes : List Notification) (s : σ) (g : Graph α) :
    IsAside g (notes.foldl (fun x note => tell host x.1 x.2 note) (s, g)).2 :=
  List.foldlRecOn _ _ (motive := fun x : σ × Graph α => IsAside g x.2) (.refl g)
    fun x aside note _ => aside.trans (tell_aside host x.1 x.2 note)

theorem observe_leads (g : Graph α) (note : Notification) :
    Leads RecordChange.IsFilling g (g.observe note) := by
  cases note with
  | record id lifecycle => exact .fill (fun r _ => ⟨rfl, rfl, rfl⟩) fun r _ => .of_same rfl
  | pool signal event => exact .refl g

theorem dispatch_leads (host : Host α σ) (s : σ) (g : Graph α) :
    Leads RecordChange.IsFilling g.unsaid (dispatch host s g).2 :=
  (tellAll_aside host g.notifications s g.unsaid).leads.trans (.foldl _ observe_leads _)

theorem evict_does (g : Graph α) : RecordChange.evict.Does g [] g.evict :=
  ⟨trivial, rfl, rfl, (List.append_nil _).symm, rfl⟩

/-! ## Runs -/

/-- Whether a relation between two graphs and the objects that got a record on the way from one to
    the other holds of all that changes lead to. -/
structure IsHeld (R : Graph α → List ObjectId → Graph α → Prop) : Prop where
  refl : ∀ g, R g [] g
  trans : ∀ {g h k ids more}, R g ids h → R h more k → R g (ids ++ more) k
  does : ∀ {d : RecordChange} {g said h}, d.Does g said h → R g d.creates h
  unsaid : ∀ g, R g [] g.unsaid

namespace IsHeld

variable {R : Graph α → List ObjectId → Graph α → Prop} {said : List Notification}

theorem changes {sort : RecordChange → Prop} (held : IsHeld R)
    (changes : RecordChanges sort g said h) :
    R g (created said) h := by
  induction changes with
  | done g => exact held.refl g
  | next fits does rest ih =>
      rw [created_append, does.created]
      exact held.trans (held.does does) ih

/-- Told and evicted, a graph has no more records than when all was taken in. -/
theorem toldAndEvicted (held : IsHeld R) (host : Host α σ) (s : σ) (g : Graph α) :
    R g.intake [] (g.toldAndEvicted host s) := by
  have filled {g h : Graph α} (leads : Leads RecordChange.IsFilling g h) : R g [] h := by
    obtain ⟨said, changes⟩ := leads
    induction changes with
    | done g => exact held.refl g
    | next fits does rest ih =>
        have first := held.does does
        rw [fits.isInner.creates] at first
        exact held.trans first ih
  have cleared (h : Graph α) : IsQuiet h { h with deferred := [] } := ⟨rfl, rfl, rfl⟩
  have dispatched := filled (dispatch_leads host s g.intake)
  have evicted := held.does (evict_does (dispatch host s g.intake).2)
  exact held.trans (held.unsaid _) (held.trans dispatched (held.trans evicted
    (filled (cleared _).leads)))

/-- What holds of chains of changes holds of runs. -/
theorem run {law : Law α} (held : IsHeld R) (run : Run law g said h) : R g (created said) h := by
  induction run with
  | refl g => exact held.refl g
  | call before c may ih =>
      rw [created_append]
      exact held.trans ih (held.changes (call_leads _ c).changes)
  | poll before host s may acts ih ihActs =>
      simp only [created_append]
      have tookIn := held.trans ih (held.changes (intake_leads _).changes)
      have told := held.trans tookIn (held.toldAndEvicted host s _)
      rw [List.append_nil] at told
      exact held.trans told ihActs

/-- A property that changes keep, runs keep. -/
theorem ofKept {P : Graph α → Prop}
    (does : ∀ {d : RecordChange} {g said h}, d.Does g said h → P g → P h)
    (unsaid : ∀ {g}, P g → P g.unsaid) : IsHeld fun (g : Graph α) _ h => P g → P h :=
  ⟨fun _ => fun start => start, fun first second => second ∘ first, does, fun _ => unsaid⟩

end IsHeld

/-- What the changes of a poll on its own keep, and all that comes as it may, runs keep. -/
theorem Run.keeps {law : Law α} {P : Graph α → Prop} {said : List Notification}
    (run : Run law g said h) (plain : ∀ {g h}, Leads RecordChange.IsPlain g h → P g → P h)
    (step : ∀ {g input}, law g input → P g → P (g.step input))
    (unsaid : ∀ {g}, P g → P g.unsaid) (start : P g) : P h := by
  have quiet {g h : Graph α} (quiet : IsQuiet g h) : P g → P h := plain quiet.leads.plain
  have waiting (g : Graph α) (wire : Wire) : IsQuiet g { g with wire } := ⟨rfl, rfl, rfl⟩
  induction run with
  | refl g => exact start
  | call before c may ih => exact step may (ih start)
  | @poll σ g h said later before host s may acts ih ihActs =>
      have beginning : IsQuiet h h.beginPoll := ⟨rfl, rfl, rfl⟩
      have clearing (k : Graph α) : IsQuiet k { k with deferred := [] } := ⟨rfl, rfl, rfl⟩
      have began := quiet beginning (ih start)
      have drained := may.keeps (P := P) (fun _ => quiet (waiting _ _)) (fun may => step may) began
      have expired := plain (expireDevices_leads _) drained
      have tookIn : P h.intake := quiet (renewSubscriptions_quiet _) expired
      have told := plain (dispatch_leads host s h.intake).plain (unsaid tookIn)
      have evicted := plain (.one (d := .evict) trivial (evict_does _)) told
      exact ihActs (quiet (clearing _) evicted)

theorem Run.config {law : Law α} {said : List Notification} (run : Run law g said h) :
    h.config = g.config :=
  IsHeld.run (R := fun g _ h => h.config = g.config)
    ⟨fun _ => rfl, fun first second => second.trans first, fun does => does.config, fun _ => rfl⟩
    run

end Graph

end SignalGraph
