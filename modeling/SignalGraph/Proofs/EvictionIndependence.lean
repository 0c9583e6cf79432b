import SignalGraph.Proofs.Duplicate
import SignalGraph.Proofs.Mismatch
import SignalGraph.Proofs.Refusal
import SignalGraph.Proofs.SimilarStores

/-! # Independence of when records are let go of

What the network says meets the same answers in graphs that are alike, and leaves them alike. So
nothing depends on when a graph lets go of the records of objects gone.
-/

namespace SignalGraph

/-! ## Answers -/

namespace Attempt

variable {σ β γ : Type} {R S : σ → σ → Prop} {s t : σ}

/-- Whether two results agree: both are refusals, for whatever reasons, or they come with the same
    value and states that are related. -/
inductive Agree (R : σ → σ → Prop) :
    EStateM.Result Error σ β → EStateM.Result Error σ β → Prop
  | ok (b : β) {s t : σ} (related : R s t) : Agree R (.ok b s) (.ok b t)
  | refused (e e' : Error) (s t : σ) : Agree R (.error e s) (.error e' t)

/-- What an action returns, if it is not refused. -/
def result? (x : Attempt σ β) (s : σ) : Option β :=
  match x s with
  | .ok b _ => some b
  | .error _ _ => none

namespace Agree

/-- Attempts that begin by reading the state agree if they do so on what each reads. -/
theorem read {f f' : σ → Attempt σ β} (agree : Agree R (f s s) (f' t t)) :
    Agree R ((current >>= f) s) ((current >>= f') t) := agree

theorem bind {x y : Attempt σ β} {f f' : β → Attempt σ γ} (first : Agree R (x s) (y t))
    (rest : ∀ b s' t', x s = .ok b s' → R s' t' → Agree S (f b s') (f' b t')) :
    Agree S ((x >>= f) s) ((y >>= f') t) := by
  rw [bind_apply, bind_apply]
  generalize came : x s = result at first
  generalize y t = other at first
  cases first with
  | ok b related => exact rest b _ _ came related
  | refused e e' s t => exact .refused e e' s t

/-- Checks that pass in the same cases can both be gone on from. -/
theorem check {check other : Except Error β} {f f' : β → Attempt σ γ}
    (same : ∀ b, other = .ok b ↔ check = .ok b)
    (rest : ∀ b, check = .ok b → Agree R (f b s) (f' b t)) :
    Agree R ((demand check >>= f) s) ((demand other >>= f') t) := by
  rw [bind_apply, bind_apply]
  cases passed : check with
  | ok b =>
      rw [(same b).mpr passed]
      exact rest b passed
  | error e =>
      cases failed : other with
      | ok b => exact absurd (passed.symm.trans ((same b).mp failed)) (by simp)
      | error e' => exact .refused e e' s t

theorem after {x : Attempt σ β} (agree : Agree R (x s) (x t)) (traceless : x.Traceless)
    (related : R s t) : R (x.after s) (x.after t) := by
  simp only [Attempt.after]
  generalize came : x s = result at agree
  generalize came' : x t = other at agree
  cases agree with
  | ok b after => exact after
  | refused e e' s' t' =>
      obtain rfl := traceless s e s' came
      obtain rfl := traceless t e' t' came'
      exact related

theorem result? {x y : Attempt σ β} (agree : Agree R (x s) (y t)) : y.result? t = x.result? s := by
  simp only [Attempt.result?]
  generalize x s = result at agree
  generalize y t = other at agree
  cases agree <;> rfl

end Agree

end Attempt

open Attempt

namespace Graph

variable {α : Type} {g h k : Graph α} {id : ObjectId} {kind : ObjectKind} {delta : Delta}
  {wiring : Wiring} {how : Lifecycle}

/-! ## Graphs alike -/

/-- Whether a graph is another but for its store, which is alike. -/
inductive Alike (g : Graph α) : Graph α → Prop
  | restored {t : Store} (stores : g.store.Alike t) : Alike g { g with store := t }

namespace Alike

theorem store (alike : g.Alike h) : g.store.Alike h.store := by
  cases alike with
  | restored stores => exact stores

theorem rest (alike : g.Alike h) : h = { g with store := h.store } := by
  cases alike with
  | restored stores => rfl

theorem trans (first : g.Alike h) (second : h.Alike k) : g.Alike k := by
  cases first with
  | restored stores =>
      cases second with
      | restored others => exact .restored (stores.trans others)

theorem now (alike : g.Alike h) : h.now = g.now := by rw [alike.rest]; rfl

theorem config (alike : g.Alike h) : h.config = g.config := by rw [alike.rest]

theorem find? (alike : g.Alike h) (there : g.store.HasLive id kind) :
    h.store.find? id = g.store.find? id := by
  obtain ⟨r, live, -⟩ := Store.hasLive_iff_live?.mp there
  exact alike.store.find? live

theorem foldl {β : Type} {f : Graph α → β → Graph α} (items : List β)
    (each : ∀ {g h : Graph α} b, g.Alike h → (f g b).Alike (f h b)) (alike : g.Alike h) :
    (items.foldl f g).Alike (items.foldl f h) := by
  induction items generalizing g h with
  | nil => exact alike
  | cons b items ih => exact ih (each b alike)

theorem modify_of_fades (alike : g.Alike h) {f : Record → Record}
    (fades : ∀ r : Record, r.frame.Fades (f r).frame) : (g.modify id f).Alike (h.modify id f) := by
  cases alike with
  | restored stores =>
      exact .restored (stores.modify_of_fades (fun r _ => fades r) fun r _ => fades r)

theorem modify_of_live (alike : g.Alike h) {r : Record} (held : g.store.find? id = some r)
    (live : r.isLive) {f : Record → Record} (fades : r.frame.Fades (f r).frame) :
    (g.modify id f).Alike (h.modify id f) := by
  cases alike with
  | restored stores =>
      exact .restored (stores.modify_of_live (Store.live?_eq_some_iff.mpr ⟨held, live⟩) fades)

/-- What has nothing to do with the store leaves graphs alike. -/
theorem apart (alike : g.Alike h) (f : Graph α → Graph α)
    (blind : ∀ (g : Graph α) t, f { g with store := t } = { f g with store := t }) :
    (f g).Alike (f h) := by
  have store : (f g).store = g.store := by
    have own := congrArg Graph.store (blind g g.store)
    exact own
  cases alike with
  | @restored t stores =>
      rw [blind g t]
      exact .restored (store.symm ▸ stores)

theorem notify (alike : g.Alike h) (id : ObjectId) (lifecycle : Lifecycle) :
    (g.notify id lifecycle).Alike (h.notify id lifecycle) :=
  alike.apart (·.notify id lifecycle) fun _ _ => rfl

theorem notifyPool (alike : g.Alike h) (signal : ObjectId) (events : List PoolEvent) :
    (g.notifyPool signal events).Alike (h.notifyPool signal events) :=
  alike.apart (·.notifyPool signal events) fun _ _ => rfl

/-! ## Subscriptions -/

theorem dropSubscription (alike : g.Alike h) (device : ObjectId) :
    (g.dropSubscription device).Alike (h.dropSubscription device) :=
  alike.apart (·.dropSubscription device) fun _ _ => rfl

theorem subscribeDevice (alike : g.Alike h) (device : ObjectId) (categories : Categories)
    (lease : Lease) (pattern : Option String) :
    (g.subscribeDevice device categories lease pattern).Alike
      (h.subscribeDevice device categories lease pattern) := by
  refine alike.apart (·.subscribeDevice device categories lease pattern) fun g t => ?_
  simp only [Graph.subscribeDevice, request, leaseSeconds, Graph.now]
  cases g.wire.request _ with
  | mk taken wire => cases taken <;> rfl

theorem autosubscribe (alike : g.Alike h) (there : g.store.HasLive id kind) :
    (g.autosubscribe id).Alike (h.autosubscribe id) := by
  have same := alike.find? there
  cases alike with
  | restored stores =>
      by_cases subscribed : (g.subscriptions.get? id).isSome
      · simpa only [Graph.autosubscribe, subscription?, subscribed, ↓reduceIte] using
          .restored stores
      · simp only [Graph.autosubscribe, subscription?, subscribed, Bool.false_eq_true, ↓reduceIte,
          same]
        cases g.patterns.find? fun p => covers p ((g.store.find? id).bind Record.name?) with
        | some p => exact (Alike.restored stores).subscribeDevice ..
        | none => exact .restored stores

/-! ## Signs of life -/

theorem touch (alike : g.Alike h) (id : ObjectId) : (g.touch id).Alike (h.touch id) := by
  simp only [Graph.touch, alike.now]
  refine alike.modify_of_fades fun r => ?_
  split
  · rename_i synced wiring
    split
    · exact ⟨rfl, by simp [Record.frame, wiring, Wiring.ties], fun live => live⟩
    · exact .refl _
  · exact .refl _

/-- Where the signal is gone, only a graph that still holds it would find a device to touch. -/
theorem touchOwner (alike : g.Alike h) (there : g.store.HasLive id kind) :
    (g.touchOwner id).Alike (h.touchOwner id) := by
  simp only [Graph.touchOwner, alike.find? there]
  cases (g.store.find? id).bind Record.device? with
  | some device => exact alike.touch device
  | none => exact alike

/-! ## New records -/

theorem founded (alike : g.Alike h) (vacant : g.store.IsVacant delta.id)
    (fits : ∀ need ∈ wiring.ties.needs, g.store.HasLive need.1 need.2) :
    (g.founded delta wiring).Alike (h.founded delta wiring) := by
  have frame := recordOf_frame g delta wiring
  have id : (g.recordOf delta wiring).id = delta.id := congrArg Frame.id frame
  have ties : (g.recordOf delta wiring).wiring.ties = wiring.ties := congrArg Frame.ties frame
  cases alike with
  | restored stores =>
      have founded := stores.found (id.symm ▸ vacant) (congrArg Frame.isLive frame)
        (ties.symm ▸ fits)
      rw [id] at founded
      exact .restored founded

theorem establish (alike : g.Alike h) (vacant : g.store.IsVacant delta.id)
    (fits : ∀ need ∈ wiring.ties.needs, g.store.HasLive need.1 need.2) :
    (g.establish delta wiring).Alike (h.establish delta wiring) := by
  have there : (g.founded delta wiring).store.HasLive delta.id wiring.kind := by
    refine ⟨g.recordOf delta wiring, ?_, recordOf_kind g delta wiring,
      congrArg Frame.isLive (recordOf_frame g delta wiring)⟩
    exact (find?_founded ..).trans (if_pos rfl)
  have touched := (alike.founded vacant fits).touchOwner there
  have stays := there.congr ((touchOwner_leads _ delta.id).sameOutline.outline delta.id)
  simp only [Graph.establish]
  split
  · exact touched.autosubscribe stays
  · exact touched

theorem ensureDevice (alike : g.Alike h) (device : ObjectId) :
    Agree Alike (ensureDevice device g) (ensureDevice device h) := by
  rcases g.store.isVacant_or_isLive device with vacant | ⟨r, held, live⟩
  · rw [ensureDevice_of_isVacant vacant,
      ensureDevice_of_isVacant (alike.store.isVacant_iff.mpr vacant), alike.now]
    exact .ok () (alike.establish vacant fun _ member => absurd member List.not_mem_nil)
  · have same := alike.find? ⟨r, held, rfl, live⟩
    by_cases kind : r.kind = .device
    · rw [ensureDevice_of_hasLive ⟨r, held, kind, live⟩,
        ensureDevice_of_hasLive ⟨r, same.trans held, kind, live⟩]
      exact .ok () alike
    · simp only [Graph.ensureDevice]
      refine .read ?_
      simp only [same, held, live, ↓reduceIte, ne_eq, kind, not_false_eq_true, throw_apply]
      exact .refused _ _ g h

theorem resolve (alike : g.Alike h) (delta : Delta) :
    Agree Alike (resolve delta g) (resolve delta h) := by
  have pool : h.newPool = g.newPool := by simp only [newPool, alike.config]
  cases kind : delta.kind with
  | device =>
      simp only [Graph.resolve, kind]
      refine .read ?_
      rw [alike.now]
      exact .ok _ alike
  | signal =>
      simp only [Graph.resolve, kind]
      refine .read (.check (fun _ => .rfl) fun device _ => ?_)
      refine .check (fun _ => by rw [alike.store.checkDevice]) fun _ _ => ?_
      refine .bind (alike.ensureDevice device) fun _ g' h' _ alike' => ?_
      rw [pool]
      exact .ok _ alike'
  | map =>
      simp only [Graph.resolve, kind]
      refine .read (.check (fun _ => .rfl) fun sources _ => ?_)
      refine .check (fun _ => .rfl) fun destination _ => ?_
      have same := alike.store.checkMapEnds_iff g.config sources destination
      rw [alike.config]
      cases here : g.store.checkMapEnds g.config sources destination with
      | ok _ =>
          rw [same.mpr here]
          exact .ok _ alike
      | error e =>
          cases there : h.store.checkMapEnds g.config sources destination with
          | ok _ => exact absurd (same.mp there) (by simp [here])
          | error e' => exact .refused _ _ g h
  | link =>
      simp only [Graph.resolve, kind]
      refine .read (.check (fun _ => .rfl) fun ids _ => ?_)
      split
      · rename_i first second _
        refine .check (fun _ => by rw [alike.store.checkDevice]) fun _ _ => ?_
        refine .check (fun _ => by rw [alike.store.checkDevice]) fun _ _ => ?_
        refine .bind (alike.ensureDevice first) fun _ g' h' _ alike' => ?_
        exact .bind (alike'.ensureDevice second) fun _ _ _ _ alike'' => .ok _ alike''
      · exact .refused _ _ g h

theorem create (alike : g.Alike h) (vacant : g.store.IsVacant delta.id) :
    Agree Alike (create delta g) (create delta h) := by
  refine .bind (alike.resolve delta) fun wiring g' h' resolved alike' => ?_
  rcases resolve_settles delta g with ⟨e, refused⟩ | ⟨wiring', k, found, resolves⟩
  · exact absurd (resolved.symm.trans refused) (by simp)
  · obtain ⟨rfl, rfl⟩ : wiring = wiring' ∧ g' = k := by simpa using resolved.symm.trans found
    exact .ok _ (alike'.establish (resolves.vacant vacant) resolves.fits.needs)

/-! ## Known records -/

theorem mergedRecord (alike : g.Alike h) (r : Record) (delta : Delta) :
    h.mergedRecord r delta = g.mergedRecord r delta := by
  simp only [Graph.mergedRecord, alike.now, alike.config]

theorem noteChange (alike : g.Alike h) {r : Record} (held : g.store.find? delta.id = some r)
    (live : r.isLive) : (g.noteChange delta).Alike (h.noteChange delta) := by
  have noted := (alike.modify_of_live held live (f := ({ · with status := .modified }))
    ⟨rfl, rfl, fun _ => live⟩).notify delta.id .modified
  have there : ((g.modify delta.id ({ · with status := .modified })).notify delta.id
      .modified).store.HasLive delta.id r.kind := by
    refine ⟨{ r with status := .modified }, ?_, rfl, rfl⟩
    exact (g.store.find?_modify ..).trans (by rw [if_pos rfl, held]; rfl)
  simp only [Graph.noteChange]
  split
  · exact noted.autosubscribe there
  · exact noted

theorem afterMerge (alike : g.Alike h) {r : Record} (held : g.store.find? delta.id = some r)
    (live : r.isLive) : (g.afterMerge r delta).Alike (h.afterMerge r delta) := by
  have frame := (mergedRecord_spec g r delta).1
  have merged : (g.withMerged r delta).Alike (h.withMerged r delta) := by
    simp only [withMerged, alike.mergedRecord]
    exact alike.modify_of_live held live ⟨congrArg Frame.id frame, congrArg Frame.ties frame,
      fun _ => live⟩
  have there : (g.withMerged r delta).store.HasLive delta.id r.kind :=
    .congr ((withMerged_sameOutline held).outline delta.id) ⟨r, held, rfl, live⟩
  have touched := merged.touchOwner there
  obtain ⟨r', held', -, live'⟩ :=
    there.congr ((touchOwner_leads _ delta.id).sameOutline.outline delta.id)
  simp only [Graph.afterMerge, alike.mergedRecord]
  split
  · exact touched.noteChange held' live'
  · exact touched

theorem upsert (alike : g.Alike h) (delta : Delta) :
    Agree Alike (upsert delta g) (upsert delta h) := by
  rcases g.store.isVacant_or_isLive delta.id with vacant | ⟨r, held, live⟩
  · rw [upsert_of_vacant vacant, upsert_of_vacant (alike.store.isVacant_iff.mpr vacant)]
    exact alike.create vacant
  · have held' := (alike.find? ⟨r, held, rfl, live⟩).trans held
    by_cases kind : r.kind = delta.kind
    · rw [upsert_of_live held live kind, upsert_of_live held' live kind, alike.mergedRecord]
      split
      · exact .refused _ _ g h
      · exact .ok _ (alike.afterMerge held live)
    · rw [upsert_of_mismatch held live kind, upsert_of_mismatch held' live kind]
      exact .refused _ _ g h

/-! ## Removal -/

theorem retire (alike : g.Alike h) (terminal : how.status.isTerminal) (id : ObjectId) :
    (g.retire id how).Alike (h.retire id how) := by
  simp only [Graph.retire, alike.now]
  refine .notify (alike.modify_of_fades ?_) id how
  intro r
  refine ⟨rfl, rfl, fun live => ?_⟩
  simp [Record.frame, Record.isLive, terminal] at live

theorem removeWithin (alike : g.Alike h) (terminal : how.status.isTerminal) (depth : Nat)
    (id : ObjectId) : (removeWithin depth g id how).1.Alike (removeWithin depth h id how).1 ∧
      (removeWithin depth h id how).2 = (removeWithin depth g id how).2 := by
  induction depth generalizing g h id with
  | zero => exact ⟨alike, rfl⟩
  | succ depth ih =>
      rcases g.store.isVacant_or_isLive id with vacant | ⟨r, held, live⟩
      · have vacant' := alike.store.isVacant_iff.mpr vacant
        rw [removeWithin_of_isVacant vacant, removeWithin_of_isVacant vacant']
        exact ⟨alike, rfl⟩
      · have same := alike.find? ⟨r, held, rfl, live⟩
        have retired := alike.retire terminal id
        -- Of an object just gone both hold the same, so that a link finds the same maps.
        have kept : (h.retire id how).store.find? id = (g.retire id how).store.find? id := by
          simp only [Graph.retire, Graph.notify, modify, Store.find?_modify, same, alike.now]
        have cascade := retired.foldl ((g.retire id how).store.dependents id r.kind)
          fun dependent alike => (ih alike dependent).1
        simp only [Graph.removeWithin, same, held, live, Bool.not_true, Bool.false_eq_true,
          ↓reduceIte, and_true, retired.store.dependents kept]
        split
        · exact cascade.dropSubscription id
        · exact cascade

/-! ## Events -/

theorem applyEvent (alike : g.Alike h) (type : EventType) (delta : Delta) :
    Agree Alike (applyEvent type delta g) (applyEvent type delta h) := by
  have ends (how : Lifecycle) (terminal : how.status.isTerminal)
      (ends : type.ending? = some how) :
      Agree Alike (Graph.applyEvent type delta g) (Graph.applyEvent type delta h) := by
    obtain ⟨removed, same⟩ := alike.removeWithin terminal 3 delta.id
    rw [applyEvent_of_ending? ends, applyEvent_of_ending? ends, remove, remove, same]
    exact .ok _ removed
  cases type with
  | announce | update => exact alike.upsert delta
  | remove => exact ends .removed rfl rfl
  | expire => exact ends .expired rfl rfl

theorem withPool {β : Type} (alike : g.Alike h) (signal : ObjectId)
    (x : Record → Attempt Pool β) :
    Agree (fun g h => g.Alike h ∧ g.store.HasLive signal .signal) (withPool signal x g)
      (withPool signal x h) := by
  refine .read (.check (fun r => alike.store.getLive_iff r) fun r got => ?_)
  refine .check (fun _ => .rfl) fun pool _ => ?_
  obtain ⟨held, kind, live⟩ := Store.getLive_eq_ok_iff.mp got
  have fills (pool : Pool) (r : Record) : (r.withPool pool).frame = r.frame :=
    (r.withPool_fills pool).frame
  simp only [within]
  cases x r pool with
  | error e after => exact .refused e e _ _
  | ok b after =>
      refine .ok b ⟨alike.modify_of_fades fun r => fills after r ▸ .refl _, ?_⟩
      exact .congr ((Store.sameOutline_modify fun r _ => fills after r).outline signal)
        ⟨r, held, kind, live⟩

theorem applyValue (alike : g.Alike h) (u : ValueUpdate) :
    Agree Alike (applyValue u g) (applyValue u h) := by
  refine .bind (alike.withPool u.signal _) fun events g' h' _ ⟨alike', there⟩ => ?_
  cases events with
  | none => exact .ok _ alike'
  | some events => exact .ok _ ((alike'.touchOwner there).notifyPool u.signal events)

end Alike

/-! ## What comes of events -/

/-- What comes of an event: nothing if it is refused, else the transition that it is, if it is
    one. -/
def outcome (g : Graph α) : NetworkEvent → Option (Option Lifecycle)
  | .record type delta => (applyEvent type delta).result? g
  | .value update => ((applyValue update).result? g).map fun _ => none
  | .sync _ => some none

/-- What comes of each of some events, taken in one after the other. -/
def outcomes (g : Graph α) : List NetworkEvent → List (Option (Option Lifecycle))
  | [] => []
  | event :: rest => g.outcome event :: (g.handle event).outcomes rest

namespace Alike

theorem handle (alike : g.Alike h) (event : NetworkEvent) :
    (g.handle event).Alike (h.handle event) := by
  cases event with
  | record type delta =>
      exact (alike.applyEvent type delta).after (applyEvent_traceless type delta) alike
  | value update => exact (alike.applyValue update).after (applyValue_traceless update) alike
  | sync device => exact alike.touch device

theorem outcome (alike : g.Alike h) (event : NetworkEvent) : h.outcome event = g.outcome event := by
  cases event with
  | record type delta => exact (alike.applyEvent type delta).result?
  | value update => exact congrArg (Option.map _) (alike.applyValue update).result?
  | sync device => rfl

end Alike

/-! ## Letting go -/

/-- Whether a graph is another without some of the records that it holds of objects gone. -/
def Loses (g h : Graph α) : Prop :=
  ∃ rs, (∀ r ∈ rs, g.store.find? r.id = some r ∧ r.isLive = false) ∧
    h = { g with store := g.store.dropAll rs }

theorem Complete.loses (complete : g.Complete) (loses : g.Loses h) : g.Alike h := by
  obtain ⟨rs, gone, rfl⟩ := loses
  exact .restored (.dropAll complete.indexed complete.sound gone)

/-- What a poll lets go of is of objects gone. -/
theorem evict_loses (indexed : g.store.Indexed) : g.Loses g.evict := by
  refine ⟨g.doomed, fun r member => ?_, rfl⟩
  obtain ⟨held, doomed⟩ := (mem_doomed_iff indexed r).mp member
  simp only [isDoomed, Bool.and_eq_true, Bool.not_eq_true'] at doomed
  exact ⟨held, doomed.1.1⟩

/-- What may come of some events where records of objects gone are let go of at any time, and the
    graph that it leaves. -/
inductive Forgets : Graph α → List NetworkEvent → List (Option (Option Lifecycle)) → Graph α → Prop
  | done (g : Graph α) : Forgets g [] [] g
  | lose {g h k : Graph α} {events : List NetworkEvent} {came : List (Option (Option Lifecycle))}
      (loses : g.Loses h) (rest : Forgets h events came k) : Forgets g events came k
  | take {g k : Graph α} {event : NetworkEvent} {events : List NetworkEvent}
      {came : List (Option (Option Lifecycle))} (rest : Forgets (g.handle event) events came k) :
      Forgets g (event :: events) (g.outcome event :: came) k

theorem Complete.handle (complete : g.Complete) (event : NetworkEvent) :
    (g.handle event).Complete :=
  complete_isHeld.changes (handle_leads g event).changes complete

/-- The simulation: a graph that lets go of records keeps being like one that does not. -/
theorem Forgets.alike {events : List NetworkEvent} {came : List (Option (Option Lifecycle))}
    (forgets : Forgets h events came k) (complete : g.Complete) (alike : g.Alike h) :
    came = g.outcomes events ∧ (g.handleAll events).Alike k := by
  induction forgets generalizing g with
  | done h => exact ⟨rfl, alike⟩
  | lose loses rest ih =>
      obtain ⟨rs, gone, rfl⟩ := loses
      have lost := Store.Alike.dropAll alike.store.right (alike.store.sound complete.sound) gone
      exact ih complete (alike.trans (.restored lost))
  | @take h k event events came rest ih =>
      obtain ⟨same, after⟩ := ih (complete.handle event) (alike.handle event)
      exact ⟨by rw [outcomes, alike.outcome event, same], after⟩

theorem Forgets.all (g : Graph α) (events : List NetworkEvent) :
    Forgets g events (g.outcomes events) (g.handleAll events) := by
  induction events generalizing g with
  | nil => exact .done g
  | cons event events ih => exact .take (ih (g.handle event))

/-- Whether a graph is another but for what it holds of objects gone: of each kind the same records
    are live, in the same order, and all that is not the store is the same, so what listeners are
    to be told and the subscriptions. -/
structure Indistinct (g h : Graph α) : Prop where
  live : ∀ kind, h.store.live kind = g.store.live kind
  rest : h = { g with store := h.store }

theorem Alike.indistinct (alike : g.Alike h) : g.Indistinct h :=
  ⟨alike.store.live_eq, alike.rest⟩

/-- Records of objects gone are never seen by what the network says. Without any of them a graph
    that there can be takes or refuses each of some events as it would with them, with the same
    transitions, and comes to have the same live records in the same order, the same to tell and
    the same subscriptions. So it does if it lets go of such records at any time between the events,
    as an eviction does. -/
theorem letting_go_unnoticed {config : Config} (reachable : Reachable config g)
    (loses : g.Loses h) (events : List NetworkEvent) :
    (h.outcomes events = g.outcomes events ∧
      (g.handleAll events).Indistinct (h.handleAll events)) ∧
    ∀ came k, Forgets g events came k →
      came = g.outcomes events ∧ (g.handleAll events).Indistinct k ∧ k.Loses k.evict := by
  obtain ⟨complete, -⟩ := reachable.complete
  obtain ⟨came, after⟩ := (Forgets.all h events).alike complete (complete.loses loses)
  refine ⟨⟨came, after.indistinct⟩, fun came k forgets => ?_⟩
  obtain ⟨same, after⟩ := forgets.alike complete (.restored (.refl complete.indexed))
  exact ⟨same, after.indistinct, evict_loses after.store.right⟩

/-- A graph that has heard of signal 2, which was then removed. -/
def heardOfRemoval : Graph Unit :=
  (heardOfSignal ⟨[.set (.wellKnown .device) (.ofId ⟨1⟩)]⟩).call (.remove ⟨2⟩)

/-- The graph without the record of the signal. -/
def forgotSignal : Graph Unit :=
  { heardOfRemoval with
    store := heardOfRemoval.store.dropAll (heardOfRemoval.store.find? ⟨2⟩).toList }

/-- A signal that comes again is new, and a value before that is refused, also where its record is
    held. -/
theorem forgotSignal_goes_on :
    heardOfRemoval.store.contains ⟨2⟩ ∧ ¬ forgotSignal.store.contains ⟨2⟩ ∧
      forgotSignal.outcomes [.value ⟨⟨2⟩, none, none, ⟨0, 0⟩⟩,
        .record .announce ⟨.signal, ⟨2⟩, ⟨[.set (.wellKnown .device) (.ofId ⟨1⟩)]⟩, []⟩,
        .record .remove (.empty .device ⟨1⟩)] =
        [none, some (some .added), some (some .removed)] := by
  have reachable : Reachable .standard heardOfRemoval := (heardOfSignal_reachable _).call _
  have loses : heardOfRemoval.Loses forgotSignal :=
    ⟨(heardOfRemoval.store.find? ⟨2⟩).toList, by decide +kernel, rfl⟩
  obtain ⟨⟨same, -⟩, -⟩ := letting_go_unnoticed reachable loses
    [.value ⟨⟨2⟩, none, none, ⟨0, 0⟩⟩,
      .record .announce ⟨.signal, ⟨2⟩, ⟨[.set (.wellKnown .device) (.ofId ⟨1⟩)]⟩, []⟩,
      .record .remove (.empty .device ⟨1⟩)]
  exact ⟨by decide +kernel, by decide +kernel, same.trans (by decide +kernel)⟩

end Graph

end SignalGraph
