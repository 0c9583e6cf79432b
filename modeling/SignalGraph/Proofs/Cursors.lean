import Mathlib.Data.List.Flatten
import SignalGraph.Proofs.Eviction
import SignalGraph.Proofs.Selection
import SignalGraph.Query.Cursor

/-! # Walks of cursors and iterators

A cursor walks through what its query yielded at its first step, and passes over what the store does
not hold when it comes there. Nothing is assumed of how the store at one step came from that at the
step before, so that anything may happen to the graph in between. An iterator goes step by step as a
cursor does that always finds the same store.
-/

namespace SignalGraph

namespace Query

variable {s : Store} {q : Query} {id : ObjectId}

/-- Whatever a query asks for is held. -/
theorem Selects.contains (selects : q.Selects s id) : s.contains id := by
  have held {r : Record} (found : s.find? id = some r) : s.contains id := by
    rw [Store.contains, found, Option.isSome_some]
  induction q with
  | all kind =>
      obtain ⟨r, found, -⟩ := selects
      exact held found
  | ids kind given =>
      obtain ⟨-, r, found, -⟩ := selects
      exact held found
  | filter _ _ _ _ ih => exact ih selects.1
  | union _ _ ihLeft ihRight => exact selects.elim ihLeft ihRight
  | intersect _ _ ih _ | difference _ _ ih _ => exact ih selects.1
  | signalsOf | mapsOf | mapsOfDevice | linksOf =>
      obtain ⟨r, found, -⟩ := selects
      exact held found
  | signalsOfMap =>
      obtain ⟨⟨r, found, -⟩, -⟩ := selects
      exact held found

end Query

namespace Cursor

variable {s : Store} {c : Cursor} {ids ahead left : List ObjectId}

/-! ## Steps -/

inductive Step where
  | next
  | size
  deriving Repr, DecidableEq

/-- A step as it was taken: on which store, which identities the cursor passed and which of them it
    found, or how many it said were left. -/
inductive Stop where
  | next (store : Store) (passed : List ObjectId) (found : Option ObjectId)
  | size (store : Store) (count : Nat)
  deriving Repr, DecidableEq

namespace Stop

def store : Stop → Store
  | next s _ _ | size s _ => s

def passed : Stop → List ObjectId
  | next _ passed _ => passed
  | size _ _ => []

/-- What a step forward returned. -/
def answer? : Stop → Option (Option ObjectId)
  | next _ _ found => some found
  | size _ _ => none

def found? (stop : Stop) : Option ObjectId := stop.answer?.join

end Stop

/-- A step, and the cursor after it. -/
def visit (c : Cursor) (s : Store) : Step → Stop × Cursor
  | .next =>
    let (found, d) := c.next s
    (.next s ((d.ids.take d.position).drop (c.ensure s).position) found, d)
  | .size =>
    let (count, d) := c.size s
    (.size s count, d)

/-- Steps one after the other, each on the store as it is then. -/
def walk (c : Cursor) : List (Store × Step) → List Stop × Cursor
  | [] => ([], c)
  | (s, step) :: later =>
    let (stop, c) := c.visit s step
    let (stops, c) := c.walk later
    (stop :: stops, c)

/-- Whether steps lead from the identities that are ahead to those that then still are. -/
inductive Advances : List ObjectId → List Stop → List ObjectId → Prop
  | done (ahead : List ObjectId) : Advances ahead [] ahead
  | next {s : Store} {skipped ahead left : List ObjectId} {found : Option ObjectId}
      {stops : List Stop} (gone : ∀ id ∈ skipped, ¬ s.contains id)
      (held : ∀ id ∈ found, s.contains id) (last : found = none → ahead = [])
      (later : Advances ahead stops left) :
      Advances (skipped ++ found.toList ++ ahead)
        (.next s (skipped ++ found.toList) found :: stops) left
  | size {s : Store} {ahead left : List ObjectId} {stops : List Stop}
      (later : Advances ahead stops left) : Advances ahead (.size s ahead.length :: stops) left

theorem seek_spec (s : Store) (ids : List ObjectId) (position : Nat) :
    ∃ skipped ahead, ids = skipped ++ (seek s ids position).1.toList ++ ahead ∧
      (∀ id ∈ skipped, ¬ s.contains id) ∧ (∀ id ∈ (seek s ids position).1, s.contains id) ∧
      ((seek s ids position).1 = none → ahead = []) ∧
      (seek s ids position).2 =
        position + (skipped ++ (seek s ids position).1.toList).length := by
  induction ids generalizing position with
  | nil => exact ⟨[], [], by simp [seek]⟩
  | cons id ids ih =>
      cases held : s.contains id with
      | true => exact ⟨[], ids, by simp [seek, held]⟩
      | false =>
          obtain ⟨skipped, ahead, split, gone, found, none, moved⟩ := ih (position + 1)
          have sought : seek s (id :: ids) position = seek s ids (position + 1) := by
            simp [seek, held]
          rw [sought]
          refine ⟨id :: skipped, ahead, ?_, ?_, found, none, ?_⟩
          · rw [List.cons_append, List.cons_append, ← split]
          · intro other member
            rcases List.mem_cons.mp member with rfl | later
            · simp [held]
            · exact gone other later
          · rw [moved]
            simp only [List.cons_append, List.length_cons]
            omega

theorem ensure_of_some (known : c.snapshot = some ids) (s : Store) : c.ensure s = c := by
  simp only [ensure, known]

theorem ensure_ensure (c : Cursor) (s t : Store) : (c.ensure s).ensure t = c.ensure s := by
  cases known : c.snapshot with
  | some ids => rw [ensure_of_some known, ensure_of_some known]
  | none => simp only [ensure, known]

/-- It does not matter whether the query is asked before a step or by it. -/
theorem visit_ensure (c : Cursor) (s : Store) (step : Step) :
    (c.ensure s).visit s step = c.visit s step := by
  cases step <;> simp only [visit, next, size, ensure_ensure]

theorem walk_ensure (c : Cursor) (s : Store) (first : Step) (later : List (Store × Step)) :
    (c.ensure s).walk ((s, first) :: later) = c.walk ((s, first) :: later) := by
  simp only [walk, visit_ensure]

/-- A step goes on from where the cursor is. -/
theorem visit_advances (known : c.snapshot = some ids) (s : Store) (step : Step) :
    (c.visit s step).2.snapshot = some ids ∧ (c.visit s step).2.query = c.query ∧
      (c.visit s step).2.position = c.position + (c.visit s step).1.passed.length ∧
      Advances (ids.drop c.position) [(c.visit s step).1]
        (ids.drop (c.visit s step).2.position) := by
  have all : c.ids = ids := by rw [Cursor.ids, known, Option.getD_some]
  cases step with
  | size =>
      simp only [visit, size, ensure_of_some known, all]
      refine ⟨known, trivial, rfl, ?_⟩
      rw [← List.length_drop]
      exact .size (.done _)
  | next =>
      obtain ⟨skipped, ahead, split, gone, held, last, moved⟩ :=
        seek_spec s (ids.drop c.position) c.position
      simp only [visit, next, ensure_of_some known, all]
      generalize (seek s (ids.drop c.position) c.position).1 = found at *
      generalize (seek s (ids.drop c.position) c.position).2 = position at *
      subst moved
      -- What lies between the old place and the new is what was sought through.
      have passed : (ids.take (c.position + (skipped ++ found.toList).length)).drop c.position =
          skipped ++ found.toList := by
        rw [List.drop_take, Nat.add_sub_cancel_left, split, List.take_left]
      have rest : ids.drop (c.position + (skipped ++ found.toList).length) = ahead := by
        rw [← List.drop_drop, split, List.drop_left]
      have kept : ids = (Cursor.mk c.query c.snapshot
          (c.position + (skipped ++ found.toList).length)).ids := all.symm
      rw [← kept, passed]
      refine ⟨known, trivial, rfl, ?_⟩
      rw [split, rest]
      exact .next gone held last (.done _)

/-! ## Walks -/

theorem Advances.append {middle : List ObjectId} {stops later : List Stop}
    (first : Advances ahead stops middle) (second : Advances middle later left) :
    Advances ahead (stops ++ later) left := by
  induction first with
  | done => exact second
  | next gone held last _ ih => exact .next gone held last (ih second)
  | size _ ih => exact .size (ih second)

theorem walk_advances (known : c.snapshot = some ids) (visits : List (Store × Step)) :
    (c.walk visits).2.query = c.query ∧
      (c.walk visits).2.position =
        c.position + ((c.walk visits).1.flatMap Stop.passed).length ∧
      Advances (ids.drop c.position) (c.walk visits).1
        (ids.drop (c.walk visits).2.position) := by
  induction visits generalizing c with
  | nil => exact ⟨rfl, rfl, .done _⟩
  | cons visit later ih =>
      obtain ⟨s, step⟩ := visit
      obtain ⟨same, query, position, advances⟩ := visit_advances known s step
      obtain ⟨queryLater, positionLater, advancesLater⟩ := ih same
      simp only [walk]
      refine ⟨queryLater.trans query, ?_, advances.append advancesLater⟩
      rw [positionLater, position, List.flatMap_cons, List.length_append, Nat.add_assoc]

namespace Advances

variable {stops before later : List Stop} {passed : List ObjectId} {found : Option ObjectId}

theorem split (advances : Advances ahead (before ++ later) left) :
    ∃ middle, Advances ahead before middle ∧ Advances middle later left := by
  induction before generalizing ahead with
  | nil => exact ⟨ahead, .done ahead, advances⟩
  | cons stop before ih =>
      cases advances with
      | next gone held last rest =>
          obtain ⟨middle, first, second⟩ := ih rest
          exact ⟨middle, .next gone held last first, second⟩
      | size rest =>
          obtain ⟨middle, first, second⟩ := ih rest
          exact ⟨middle, .size first, second⟩

theorem ahead_eq (advances : Advances ahead stops left) :
    ahead = stops.flatMap Stop.passed ++ left := by
  induction advances with
  | done => rfl
  | next _ _ _ _ ih => rw [List.flatMap_cons, Stop.passed, ih, ← List.append_assoc]
  | size _ ih => exact ih

/-- What a step forward passed over is not held then, but what it found is. -/
theorem of_next_mem (advances : Advances ahead stops left) (member : .next s passed found ∈ stops) :
    ∃ skipped, passed = skipped ++ found.toList ∧ (∀ id ∈ skipped, ¬ s.contains id) ∧
      ∀ id ∈ found, s.contains id := by
  obtain ⟨before, later, rfl⟩ := List.append_of_mem member
  obtain ⟨middle, -, after⟩ := advances.split
  cases after with
  | next gone held _ _ => exact ⟨_, rfl, gone, held⟩

/-- As many identities are left as have not been passed. -/
theorem count_add (advances : Advances ahead stops left) {count : Nat}
    (split : stops = before ++ .size s count :: later) :
    count + (before.flatMap Stop.passed).length = ahead.length := by
  subst split
  obtain ⟨middle, first, after⟩ := advances.split
  cases after with
  | size => rw [first.ahead_eq, List.length_append, Nat.add_comm]

/-- Where nothing is ahead, nothing is found. -/
theorem found?_of_nil (advances : Advances [] stops left) : ∀ stop ∈ stops, stop.found? = none := by
  intro stop member
  obtain ⟨before, later, rfl⟩ := List.append_of_mem member
  obtain ⟨middle, first, after⟩ := advances.split
  have none : middle = [] := (List.append_eq_nil_iff.mp first.ahead_eq.symm).2
  cases after with
  | next =>
      obtain ⟨found, -⟩ := List.append_eq_nil_iff.mp none
      rw [Stop.found?, Stop.answer?, Option.join_some]
      exact Option.toList_eq_nil_iff.mp (List.append_eq_nil_iff.mp found).2
  | size => rfl

/-- A step that finds nothing has passed all, and no later one finds anything. -/
theorem exhausted (advances : Advances ahead stops left)
    (split : stops = before ++ .next s passed none :: later) :
    before.flatMap Stop.passed ++ passed = ahead ∧ ∀ stop ∈ later, stop.found? = none := by
  subst split
  obtain ⟨middle, first, after⟩ := advances.split
  cases after with
  | next gone held last rest =>
      obtain rfl := last rfl
      refine ⟨?_, rest.found?_of_nil⟩
      rw [first.ahead_eq, List.append_nil]

/-- The identities found are in order those passed that are held when they are passed. -/
theorem found_eq (advances : Advances ahead stops left) : stops.filterMap Stop.found? =
    stops.flatMap fun stop => stop.passed.filter stop.store.contains := by
  induction advances with
  | done => rfl
  | @next s skipped _ _ found _ gone held _ _ ih =>
      have dropped : skipped.filter s.contains = [] := List.filter_eq_nil_iff.mpr gone
      rw [List.flatMap_cons, ← ih, Stop.passed, Stop.store, List.filter_append, dropped,
        List.nil_append]
      cases found with
      | none => rfl
      | some id => simp [Stop.found?, Stop.answer?, held id rfl]
  | size _ ih => exact ih

theorem found_sublist (advances : Advances ahead stops left) :
    (stops.filterMap Stop.found?).Sublist ahead := by
  have kept : (stops.filterMap Stop.found?).Sublist (stops.flatMap Stop.passed) := by
    rw [advances.found_eq]
    exact List.Sublist.flatMap_right _ fun stop _ => List.filter_sublist
  rw [advances.ahead_eq]
  exact kept.trans (List.sublist_append_left _ _)

/-! ## On a store that does not change -/

/-- Where all that is ahead is held, each step forward finds what is next. -/
theorem answers_eq (advances : Advances ahead stops left)
    (same : ∀ stop ∈ stops, stop.store = s) (held : ∀ id ∈ ahead, s.contains id) :
    stops.filterMap Stop.answer? =
      (List.range (stops.filterMap Stop.answer?).length).map (ahead[·]?) ∧
    left = ahead.drop (stops.filterMap Stop.answer?).length := by
  induction advances with
  | done => exact ⟨rfl, rfl⟩
  | @next t skipped ahead _ found stops gone _ last _ ih =>
      obtain rfl : t = s := same _ List.mem_cons_self
      -- Nothing ahead is gone, so that nothing can have been passed over.
      have none : skipped = [] := by
        refine List.eq_nil_iff_forall_not_mem.mpr fun id member => gone id member (held id ?_)
        exact List.mem_append_left _ (List.mem_append_left _ member)
      subst none
      obtain ⟨answers, rest⟩ := ih (fun stop member => same stop (List.mem_cons_of_mem _ member))
        fun id member => held id (List.mem_append_right _ member)
      have counted : (Stop.next t ([] ++ found.toList) found :: stops).filterMap Stop.answer? =
          found :: stops.filterMap Stop.answer? := rfl
      rw [counted, List.length_cons, List.range_succ_eq_map, List.map_cons, List.map_map]
      cases found with
      | none =>
          obtain rfl := last rfl
          have shifted : (List.range (stops.filterMap Stop.answer?).length).map
              (([] : List ObjectId)[·]?) = (List.range (stops.filterMap Stop.answer?).length).map
              ((([] : List ObjectId)[·]?) ∘ Nat.succ) := List.map_congr_left fun _ _ => rfl
          exact ⟨congrArg _ (answers.trans shifted), rest.trans List.drop_nil⟩
      | some id => exact ⟨congrArg _ answers, rest⟩
  | size _ ih => exact ih (fun stop member => same stop (List.mem_cons_of_mem _ member)) held

/-- Then what is left are those that the steps forward have not yet found. -/
theorem count_eq (advances : Advances ahead stops left) (same : ∀ stop ∈ stops, stop.store = s)
    (held : ∀ id ∈ ahead, s.contains id) {t : Store} {count : Nat}
    (split : stops = before ++ .size t count :: later) :
    count = ahead.length - (before.filterMap Stop.answer?).length := by
  subst split
  obtain ⟨middle, first, after⟩ := advances.split
  have rest := (first.answers_eq (fun stop member => same stop (List.mem_append_left _ member))
    held).2
  cases after with
  | size => rw [rest, List.length_drop]

end Advances

/-- How the steps of a cursor walk through identities. -/
structure Walks (ids : List ObjectId) (stops : List Stop) : Prop where
  /-- The steps pass the identities from the first on. -/
  passed : stops.flatMap Stop.passed <+: ids
  /-- A step forward passes over what is not held then, up to what it finds. -/
  next : ∀ s passed found, .next s passed found ∈ stops → ∃ skipped,
    passed = skipped ++ found.toList ∧ (∀ id ∈ skipped, ¬ s.contains id) ∧
      ∀ id ∈ found, s.contains id
  /-- So what was found is, in order, what was passed but for what was not held then. -/
  found : stops.filterMap Stop.found? =
    stops.flatMap fun stop => stop.passed.filter stop.store.contains
  sublist : (stops.filterMap Stop.found?).Sublist ids
  /-- As many are left as have not been passed. -/
  size : ∀ before s count later, stops = before ++ .size s count :: later →
    count + (before.flatMap Stop.passed).length = ids.length
  /-- Nothing is found only after all has been passed, and then never more. -/
  exhausted : ∀ before s passed later, stops = before ++ .next s passed none :: later →
    before.flatMap Stop.passed ++ passed = ids ∧ ∀ stop ∈ later, stop.found? = none

theorem Advances.walks {stops : List Stop} (advances : Advances ids stops left) :
    Walks ids stops where
  passed := ⟨left, advances.ahead_eq.symm⟩
  next _ _ _ member := advances.of_next_mem member
  found := advances.found_eq
  sublist := advances.found_sublist
  size _ _ _ _ split := advances.count_add split
  exhausted _ _ _ _ split := advances.exhausted split

theorem store_of_mem_walk {visits : List (Store × Step)} {stop : Stop}
    (member : stop ∈ (c.walk visits).1) : ∃ visit ∈ visits, stop.store = visit.1 := by
  induction visits generalizing c with
  | nil => cases member
  | cons visit visits ih =>
      obtain ⟨s, step⟩ := visit
      rcases List.mem_cons.mp member with rfl | later
      · refine ⟨(s, step), List.mem_cons_self, ?_⟩
        cases step <;> rfl
      · obtain ⟨visit, among, same⟩ := ih later
        exact ⟨visit, List.mem_cons_of_mem _ among, same⟩

theorem length_answers_walk (c : Cursor) (visits : List (Store × Step)) :
    ((c.walk visits).1.filterMap Stop.answer?).length = (visits.map Prod.snd).count .next := by
  induction visits generalizing c with
  | nil => rfl
  | cons visit visits ih =>
      obtain ⟨s, step⟩ := visit
      cases step with
      | next => exact (congrArg (· + 1) (ih _)).trans List.count_cons_self.symm
      | size =>
          have other : Step.size ≠ Step.next := by decide
          exact (ih _).trans (List.count_cons_of_ne other).symm

/-- A cursor that starts again walks what its query yields at the first step. -/
theorem restart_advances (c : Cursor) (s : Store) (first : Step) (later : List (Store × Step)) :
    (c.restart.walk ((s, first) :: later)).2.query = c.query ∧
      (c.restart.walk ((s, first) :: later)).2.position =
        ((c.restart.walk ((s, first) :: later)).1.flatMap Stop.passed).length ∧
      Advances (c.query.evaluate s) (c.restart.walk ((s, first) :: later)).1
        ((c.query.evaluate s).drop (c.restart.walk ((s, first) :: later)).2.position) := by
  have known : (c.restart.ensure s).snapshot = some (c.query.evaluate s) := rfl
  have walked := walk_advances known ((s, first) :: later)
  rw [walk_ensure] at walked
  obtain ⟨query, position, advances⟩ := walked
  exact ⟨query, position.trans (Nat.zero_add _), advances⟩

/-- On a store that does not change, the steps forward find what the query yields, one after the
    other, and as many are left as have not been found yet. -/
theorem walk_same (c : Cursor) (held : ∀ id ∈ c.query.evaluate s, s.contains id)
    (steps : List Step) :
    let ids := c.query.evaluate s
    let stops := (c.restart.walk (steps.map fun step => (s, step))).1
    stops.filterMap Stop.answer? = (List.range (steps.count .next)).map (ids[·]?) ∧
      ∀ before t count later, stops = before ++ .size t count :: later →
        count = ids.length - (before.filterMap Stop.answer?).length := by
  intro ids stops
  have same : ∀ stop ∈ stops, stop.store = s := by
    intro stop member
    obtain ⟨visit, among, same⟩ := store_of_mem_walk member
    obtain ⟨step, -, rfl⟩ := List.mem_map.mp among
    exact same
  have counted : (stops.filterMap Stop.answer?).length = steps.count .next := by
    rw [length_answers_walk, List.map_map, Function.comp_def, List.map_id']
  have advances : ∃ left, Advances ids stops left := by
    cases steps with
    | nil => exact ⟨ids, .done ids⟩
    | cons first rest => exact ⟨_, (restart_advances c s first _).2.2⟩
  obtain ⟨left, advances⟩ := advances
  refine ⟨?_, fun _ _ _ _ split => advances.count_eq same held split⟩
  rw [← counted]
  exact (advances.answers_eq same held).1

end Cursor

/-! ## Iterators -/

namespace QueryIterator

open Cursor (Step Stop)

inductive Answer where
  | next (found : Option Record)
  | size (count : Nat)
  deriving Repr, DecidableEq

namespace Answer

/-- What a step forward returned. -/
def found? : Answer → Option (Option Record)
  | next found => some found
  | size _ => none

/-- What an iterator says where a cursor stops: of an identity that is found, its record. -/
def ofStop (s : Store) : Stop → Answer
  | .next _ _ found => next (found.bind s.find?)
  | .size _ count => size count

theorem found?_map_ofStop (s : Store) (stops : List Stop) :
    (stops.map (ofStop s)).filterMap found? =
      (stops.filterMap Stop.answer?).map (·.bind s.find?) := by
  have each (stop : Stop) : (ofStop s stop).found? = stop.answer?.map (·.bind s.find?) := by
    cases stop <;> rfl
  rw [List.filterMap_map, List.map_filterMap]
  exact congrArg (List.filterMap · stops) (funext each)

end Answer

/-- A step, and the iterator after it. -/
def visit (i : QueryIterator) : Step → Answer × QueryIterator
  | .next => (.next i.next.1, i.next.2)
  | .size => (.size i.size.1, i.size.2)

def walk (i : QueryIterator) : List Step → List Answer × QueryIterator
  | [] => ([], i)
  | step :: later =>
    let (answer, i) := i.visit step
    let (answers, i) := i.walk later
    (answer :: answers, i)

/-- The cursor that stands where an iterator does, with its query asked. -/
def cursor (i : QueryIterator) : Cursor := ⟨i.query, some i.ids, i.position⟩

variable {s : Store}

theorem seek_eq (s : Store) (ids : List ObjectId) (position : Nat) : seek s ids position =
    ((Cursor.seek s ids position).1.bind s.find?, (Cursor.seek s ids position).2) := by
  induction ids generalizing position with
  | nil => rfl
  | cons id ids ih =>
      cases found : s.find? id with
      | some r => simp [seek, Cursor.seek, Store.contains, found]
      | none => simp [seek, Cursor.seek, Store.contains, found, ih]

/-- An iterator and the cursor in its place take the same steps. -/
theorem visit_eq (i : QueryIterator) (step : Step) :
    (i.visit step).1 = .ofStop i.store (i.cursor.visit i.store step).1 ∧
      (i.visit step).2.cursor = (i.cursor.visit i.store step).2 ∧
      (i.visit step).2.store = i.store := by
  cases step with
  | size => exact ⟨rfl, rfl, rfl⟩
  | next =>
      simp only [visit, next, seek_eq]
      exact ⟨rfl, rfl, trivial⟩

theorem walk_eq (i : QueryIterator) (steps : List Step) : (i.walk steps).1 =
    (i.cursor.walk (steps.map fun step => (i.store, step))).1.map (.ofStop i.store) := by
  induction steps generalizing i with
  | nil => rfl
  | cons step later ih =>
      obtain ⟨answer, cursor, store⟩ := i.visit_eq step
      simp only [walk, Cursor.walk, List.map_cons, ih, answer, cursor, store]

theorem walk_start (c : Cursor) (s : Store) (steps : List Step) :
    ((start c.query s).walk steps).1 =
      (c.restart.walk (steps.map fun step => (s, step))).1.map (.ofStop s) := by
  rw [walk_eq]
  cases steps with
  | nil => rfl
  | cons first later =>
      have asked := c.restart.walk_ensure s first (later.map fun step => (s, step))
      exact congrArg (fun walked => walked.1.map (Answer.ofStop s)) asked

/-- An iterator yields the records of what the query yields, one after the other and then nothing,
    and says how many of them it has not yielded yet. -/
theorem walk_records (indexed : s.Indexed) (c : Cursor)
    (held : ∀ id ∈ c.query.evaluate s, s.contains id) (steps : List Step) :
    let records := (c.query.evaluate s).filterMap s.find?
    let answers := ((start c.query s).walk steps).1
    answers.filterMap Answer.found? = (List.range (steps.count .next)).map (records[·]?) ∧
      ∀ before count later, answers = before ++ .size count :: later →
        count = records.length - (before.filterMap Answer.found?).length := by
  intro records answers
  have ids : records.map Record.id = c.query.evaluate s := indexed.ids_filterMap held
  obtain ⟨found, counts⟩ := c.walk_same held steps
  have yields : answers = _ := walk_start c s steps
  constructor
  · rw [yields, Answer.found?_map_ofStop, found, List.map_map]
    refine List.map_congr_left fun n _ => ?_
    rw [Function.comp_apply, ← ids, List.getElem?_map]
    cases there : records[n]? with
    | none => rfl
    | some r =>
        obtain ⟨id, -, found⟩ := List.mem_filterMap.mp (List.mem_of_getElem? there)
        rw [Option.map_some, Option.bind_some, indexed.keyed id r found, found]
  · intro before count later split
    rw [yields] at split
    obtain ⟨stops, rest, among, rfl, ends⟩ := List.map_eq_append_iff.mp split
    obtain ⟨stop, _, rfl, last, -⟩ := List.map_eq_cons_iff.mp ends
    cases stop with
    | next => cases last
    | size t _ =>
        obtain rfl := Answer.size.inj last
        rw [counts stops t _ _ among, Answer.found?_map_ofStop, List.length_map, ← ids,
          List.length_map]

end QueryIterator

/-! ## Reachable graphs -/

namespace Graph

open Cursor

variable {α : Type} {config : Config} {g : Graph α}

/-- A cursor that starts, whatever it did before, asks its query at its first step and walks through
    what that yields, each identity once, until it starts again: in order, passing over those alone
    that are not held when their turn comes, whatever became of the graph in between. Its place is
    always behind as many as it has passed, and so never behind the end. On a graph that does not
    change its steps find just what the query yields, one after the other. An iterator, which borrows
    the graph, yields the records of just that, and its size counts those still to come. -/
theorem cursor_walks_snapshot (reachable : Reachable config g) (c : Cursor) :
    let ids := c.query.evaluate g.store
    (∀ first later,
      let stops := (c.restart.walk ((g.store, first) :: later)).1
      let after := (c.restart.walk ((g.store, first) :: later)).2
      Walks ids stops ∧ (stops.filterMap Stop.found?).Nodup ∧ after.query = c.query ∧
        after.position = (stops.flatMap Stop.passed).length) ∧
    (∀ steps : List Step,
      let stops := (c.restart.walk (steps.map fun step => (g.store, step))).1
      stops.filterMap Stop.answer? = (List.range (steps.count .next)).map (ids[·]?) ∧
        ∀ before s count later, stops = before ++ .size s count :: later →
          count = ids.length - (before.filterMap Stop.answer?).length) ∧
    let records := ids.filterMap g.store.find?
    records.map Record.id = ids ∧
    ∀ steps : List Step,
      let answers := ((QueryIterator.start c.query g.store).walk steps).1
      answers.filterMap QueryIterator.Answer.found? =
          (List.range (steps.count .next)).map (records[·]?) ∧
        ∀ before count later, answers = before ++ .size count :: later →
          count = records.length - (before.filterMap QueryIterator.Answer.found?).length := by
  intro ids
  constructor
  · intro first later stops after
    obtain ⟨query, position, advances⟩ := restart_advances c g.store first later
    have walks := advances.walks
    have once := Query.nodup_evaluate reachable.indexed c.query
    exact ⟨walks, once.sublist walks.sublist, query, position⟩
  · have held : ∀ id ∈ ids, g.store.contains id := fun id member =>
      ((Query.mem_evaluate_iff reachable.indexed c.query id).mp member).contains
    exact ⟨c.walk_same held, reachable.indexed.ids_filterMap held,
      QueryIterator.walk_records reachable.indexed c held⟩

/-- Settings under which records are let go of as soon as listeners have been told. -/
def graceless : Config := { Config.standard with gracePeriodMs := 0, deviceTimeoutSecs := 0 }

/-- The announcement of a signal of device 1. -/
def hearOf (signal : ObjectId) : Call Unit :=
  .apply .announce ⟨.signal, signal, ⟨[.set (.wellKnown .device) (.ofId ⟨1⟩)]⟩, []⟩

/-- A graph without a grace period that has heard of the signals 2, 3 and 4. -/
def heardOfThree : Graph Unit :=
  (((make (.quiet ⟨0, 0⟩) graceless).call (hearOf ⟨2⟩)).call (hearOf ⟨3⟩)).call (hearOf ⟨4⟩)

theorem heardOfThree_reachable : Reachable graceless heardOfThree := by
  iterate 3 refine .call ?_ _
  exact .make _ _

/-- The same after signal 3 was removed, and two polls told of it and let go of it. -/
def heardOfThree.later : Graph Unit :=
  (poll .deaf () (poll .deaf () (heardOfThree.call (.remove ⟨3⟩))).2.1).2.1

/-- Between the first step and the third the second signal is let go of, which the cursor passes
    over then. -/
theorem heardOfThree_walked :
    let stops := ((Cursor.start (.all .signal)).restart.walk [(heardOfThree.store, .next),
      (heardOfThree.store, .size), (heardOfThree.later.store, .next),
      (heardOfThree.later.store, .next)]).1
    Reachable graceless heardOfThree ∧
      Walks [⟨2⟩, ⟨3⟩, ⟨4⟩] stops ∧
      stops.map Stop.passed = [[⟨2⟩], [], [⟨3⟩, ⟨4⟩], []] ∧
      stops.map Stop.answer? = [some (some ⟨2⟩), none, some (some ⟨4⟩), some none] := by
  intro stops
  have asked : (Query.all .signal).evaluate heardOfThree.store = [⟨2⟩, ⟨3⟩, ⟨4⟩] := by
    decide +kernel
  obtain ⟨walked, -⟩ := cursor_walks_snapshot heardOfThree_reachable (Cursor.start (.all .signal))
  obtain ⟨walks, -⟩ := walked .next [(heardOfThree.store, .size),
    (heardOfThree.later.store, .next), (heardOfThree.later.store, .next)]
  exact ⟨heardOfThree_reachable, asked ▸ walks, by decide +kernel, by decide +kernel⟩

end Graph

end SignalGraph
