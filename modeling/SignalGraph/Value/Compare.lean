import SignalGraph.Text.Wildcard
import SignalGraph.Value.Basic

/-! # Comparison of values

Order, equality and glob matching of values. Order is lexicographic among values of one kind, a
proper beginning being less; null and values of different kinds have none. Equality takes numbers
as numbers: the zeros are equal, and what is not a number equals nothing, itself included.
-/

namespace SignalGraph

namespace Scalar

def compare? : Scalar → Scalar → Option Ordering
  | bool a, bool b => some (compare a.toNat b.toNat)
  | int32 a, int32 b => some (compare a.toInt b.toInt)
  | int64 a, int64 b => some (compare a.toInt b.toInt)
  | float32 a, float32 b => a.compare? b
  | float64 a, float64 b => a.compare? b
  | string a, string b => some (compareOfLessAndEq a b)
  | time a, time b => some (compare a b)
  | _, _ => none

def eqv : Scalar → Scalar → Bool
  | float32 a, float32 b => a.eqv b
  | float64 a, float64 b => a.eqv b
  | a, b => a == b

end Scalar

namespace Value

/-- The order of the first elements that differ, else that of the lengths. -/
def compareScalars? : List Scalar → List Scalar → Option Ordering
  | a :: as, b :: bs =>
    match a.compare? b with
    | some .eq => compareScalars? as bs
    | other => other
  | as, bs => some (compare as.length bs.length)

def compare? (v w : Value) : Option Ordering :=
  if v.kind ≠ w.kind ∨ v.isNull then none else compareScalars? v.scalars w.scalars

def eqvScalars : List Scalar → List Scalar → Bool
  | [], [] => true
  | a :: as, b :: bs => a.eqv b && eqvScalars as bs
  | _, _ => false

def eqv (v w : Value) : Bool := v.kind == w.kind && eqvScalars v.scalars w.scalars

/-- Whether texts match globs one by one. -/
def matchesGlobs : List String → List String → Bool
  | [], [] => true
  | p :: ps, s :: ss => Text.matchesGlob p s && matchesGlobs ps ss
  | _, _ => false

/-- Whether a value is equal to a pattern, in whose strings a star stands for any text. -/
def isMatchedBy (v pattern : Value) : Bool :=
  match v.toStrings?, pattern.toStrings? with
  | some texts, some globs => matchesGlobs globs texts
  | _, _ => v.compare? pattern == some .eq

end Value

end SignalGraph
