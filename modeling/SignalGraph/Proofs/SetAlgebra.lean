import SignalGraph.Proofs.Selection

/-! # Set algebra of queries

Queries combine as sets do, and keep the order of what they find first. No query yields an object
twice, at whatever depth, so that sizes add up as those of sets do.
-/

namespace SignalGraph

namespace Query

variable {s : Store}

/-! ## What combinations yield -/

theorem eraseDups_evaluate (indexed : s.Indexed) (q : Query) :
    (q.evaluate s).eraseDups = q.evaluate s := eraseDups_of_nodup (q.nodup_evaluate indexed)

theorem evaluate_union (indexed : s.Indexed) (a b : Query) : (union a b).evaluate s =
    a.evaluate s ++ (b.evaluate s).filter fun id => id ∉ a.evaluate s := by
  rw [evaluate, b.eraseDups_evaluate indexed]

theorem evaluate_difference_self (s : Store) (a : Query) : (difference a a).evaluate s = [] := by
  refine List.filter_eq_nil_iff.mpr fun id member => ?_
  simpa using member

/-! ## Sizes -/

/-- It does not matter from which side the common part is counted. -/
theorem size_intersect_comm (indexed : s.Indexed) (a b : Query) :
    (intersect a b).size s = (intersect b a).size s := by
  refine List.Perm.length_eq ((List.perm_ext_iff_of_nodup (nodup_evaluate indexed _)
    (nodup_evaluate indexed _)).mpr fun id => ?_)
  simp only [evaluate, List.mem_filter, decide_eq_true_eq, and_comm]

theorem size_difference_add_size_intersect (s : Store) (a b : Query) :
    (difference a b).size s + (intersect a b).size s = a.size s := by
  have parts := List.length_eq_length_filter_add (l := a.evaluate s) fun id => id ∈ b.evaluate s
  simp only [size, evaluate, decide_not]
  omega

theorem size_union (indexed : s.Indexed) (a b : Query) :
    (union a b).size s = a.size s + (difference b a).size s := by
  rw [size, evaluate_union indexed, List.length_append]
  rfl

theorem size_union_add_size_intersect (indexed : s.Indexed) (a b : Query) :
    (union a b).size s + (intersect a b).size s = a.size s + b.size s := by
  have others := size_difference_add_size_intersect s b a
  rw [size_union indexed, size_intersect_comm indexed]
  omega

/-! ## Laws of sets -/

/-- Whether two queries are the same by the laws of sets, used anywhere inside them. To take away
    once more is to take away all at once. -/
inductive Equivalent : Query → Query → Prop
  | refl (q : Query) : Equivalent q q
  | symm {q r : Query} (other : Equivalent r q) : Equivalent q r
  | trans {q r t : Query} (first : Equivalent q r) (second : Equivalent r t) : Equivalent q t
  | union_assoc (a b c : Query) : Equivalent (union (union a b) c) (union a (union b c))
  | union_self (a : Query) : Equivalent (union a a) a
  | intersect_assoc (a b c : Query) :
      Equivalent (intersect (intersect a b) c) (intersect a (intersect b c))
  | intersect_self (a : Query) : Equivalent (intersect a a) a
  | difference_difference (a b c : Query) :
      Equivalent (difference (difference a b) c) (difference a (union b c))
  | filter {q r : Query} (input : Equivalent q r) (key : Key) (op : FilterOp) (value : Value) :
      Equivalent (q.filter key op value) (r.filter key op value)
  | union {a b c d : Query} (left : Equivalent a c) (right : Equivalent b d) :
      Equivalent (union a b) (union c d)
  | intersect {a b c d : Query} (left : Equivalent a c) (right : Equivalent b d) :
      Equivalent (intersect a b) (intersect c d)
  | difference {a b c d : Query} (left : Equivalent a c) (right : Equivalent b d) :
      Equivalent (difference a b) (difference c d)

/-- Taking the same away again changes nothing. -/
theorem Equivalent.difference_again (a b : Query) :
    Equivalent ((a.difference b).difference b) (a.difference b) :=
  .trans (.difference_difference a b b) (.difference (.refl a) (.union_self b))

/-- Equivalent queries ask for the same objects. -/
theorem Equivalent.selects_iff {q r : Query} (equivalent : Equivalent q r) (id : ObjectId) :
    q.Selects s id ↔ r.Selects s id := by
  induction equivalent with
  | refl q => rfl
  | symm _ ih => exact ih.symm
  | trans _ _ first second => exact first.trans second
  | union_assoc a b c => exact or_assoc
  | union_self a => exact or_self_iff
  | intersect_assoc a b c => exact and_assoc
  | intersect_self a => exact and_self_iff
  | difference_difference a b c => simp only [Selects, not_or, and_assoc]
  | filter _ key op value ih => exact and_congr_left fun _ => ih
  | union _ _ left right => exact or_congr left right
  | intersect _ _ left right => exact and_congr left right
  | difference _ _ left right => exact and_congr left (not_congr right)

end Query

/-! ## Reachable graphs -/

namespace Graph

open Query

variable {α : Type} {config : Config} {g : Graph α}

/-- Two queries of one kind combine. Their union yields what the first does and then, in the order
    of the second, what only the second does; their intersection and their difference yield those of
    the first, in order, that the second yields too, or does not. So sizes add up, and nothing is
    left of a query without itself. As sets, unions and intersections are associative and idempotent
    and what is taken away twice is taken away at once, however deep they are nested. -/
theorem queries_combine_as_sets (reachable : Reachable config g) {a b : Query}
    (same : a.kind = b.kind) :
    (∀ make ∈ [union, intersect, difference], combine make a b = .ok (make a b)) ∧
      (union a b).evaluate g.store =
        a.evaluate g.store ++ (b.evaluate g.store).filter (fun id => id ∉ a.evaluate g.store) ∧
      (intersect a b).evaluate g.store =
        (a.evaluate g.store).filter (fun id => id ∈ b.evaluate g.store) ∧
      (difference a b).evaluate g.store =
        (a.evaluate g.store).filter (fun id => id ∉ b.evaluate g.store) ∧
      (union a b).size g.store + (intersect a b).size g.store = a.size g.store + b.size g.store ∧
      (difference a b).size g.store + (intersect a b).size g.store = a.size g.store ∧
      (difference a a).evaluate g.store = [] ∧
      ∀ q r, Equivalent q r → ∀ id, id ∈ q.evaluate g.store ↔ id ∈ r.evaluate g.store := by
  have indexed := reachable.indexed
  refine ⟨fun make _ => combine_eq_ok_iff.mpr ⟨same, rfl⟩, evaluate_union indexed a b, rfl, rfl,
    size_union_add_size_intersect indexed a b, size_difference_add_size_intersect g.store a b,
    evaluate_difference_self g.store a, fun q r equivalent id => ?_⟩
  rw [mem_evaluate_iff indexed, mem_evaluate_iff indexed, equivalent.selects_iff]

theorem heardOfSignal_combined :
    let g := heardOfSignal ⟨[.set (.wellKnown .device) (.ofId ⟨1⟩)]⟩
    let a : Query := .all .signal
    let b : Query := .ids .signal [⟨9⟩, ⟨2⟩]
    Reachable .standard g ∧ a.kind = b.kind ∧ a.size g.store = 1 ∧
      (a.union b).size g.store + (a.intersect b).size g.store = a.size g.store + b.size g.store := by
  intro g a b
  have reachable := heardOfSignal_reachable ⟨[.set (.wellKnown .device) (.ofId ⟨1⟩)]⟩
  have same : a.kind = b.kind := rfl
  obtain ⟨-, -, -, -, sizes, -⟩ := queries_combine_as_sets reachable same
  exact ⟨reachable, same, by decide, sizes⟩

/-- Differences are neither associative nor idempotent: a query without what is left of it without
    itself is the query, and without itself it is nothing. -/
theorem difference_depends_on_nesting :
    let g := heardOfSignal ⟨[.set (.wellKnown .device) (.ofId ⟨1⟩)]⟩
    let a : Query := .all .signal
    Reachable .standard g ∧ a.Built ∧
      (a.difference (a.difference a)).evaluate g.store = [⟨2⟩] ∧
      ((a.difference a).difference a).evaluate g.store = [] ∧
      a.evaluate g.store = [⟨2⟩] ∧ (a.difference a).evaluate g.store = [] :=
  ⟨heardOfSignal_reachable _, .all .signal, by decide, by decide, by decide, by decide⟩

end Graph

end SignalGraph
