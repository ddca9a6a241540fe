/-!
# Counting lazy loads

Reading a deferred attribute on many instances, one after the other, costs one query each. A
tracker counts the lazy loads of every attribute of every table and tells when one reaches a
threshold. It can be switched off, and counts nothing then.
-/

set_option autoImplicit false

namespace LazyMapper

/-- The counts of lazy loads. -/
structure Tracker where
  /-- A positive count for every table and attribute that was loaded lazily. -/
  counts : List ((String × String) × Nat)
  /-- The count that makes the loads of an attribute repeated; zero for none. -/
  threshold : Nat
  enabled : Bool
deriving DecidableEq, Repr

/-- A summary of the counts. -/
structure LazyLoadStats where
  /-- All loads. -/
  total : Nat
  /-- The attributes that were loaded. -/
  attributes : Nat
  /-- The attributes whose count has reached the threshold. -/
  repeated : Nat
deriving DecidableEq, Repr

namespace Tracker

/-- The tracker without counts. -/
def ofThreshold (threshold : Nat) : Tracker := ⟨[], threshold, true⟩

/-- The tracker without counts and with the threshold of three. -/
def default : Tracker := ofThreshold 3

/-- The counts with one more load. -/
def increment (subject : String × String) :
    List ((String × String) × Nat) → List ((String × String) × Nat)
  | [] => [(subject, 1)]
  | (other, count) :: rest =>
    if subject = other then (other, count + 1) :: rest
    else (other, count) :: increment subject rest

/-- The loads of an attribute. -/
def count (tracker : Tracker) (table name : String) : Nat :=
  (tracker.counts.lookup (table, name)).getD 0

/-- The count makes the loads of an attribute repeated. -/
def isRepeated (tracker : Tracker) (count : Nat) : Bool :=
  0 < tracker.threshold && tracker.threshold ≤ count

/-- Counts a load of an attribute, and tells whether its count reaches the threshold by it. -/
def record (tracker : Tracker) (table name : String) : Bool × Tracker :=
  if tracker.enabled then
    let counted := { tracker with counts := increment (table, name) tracker.counts }
    (0 < tracker.threshold && counted.count table name == tracker.threshold, counted)
  else (false, tracker)

/-- Counting goes on. -/
def enable (tracker : Tracker) : Tracker := { tracker with enabled := true }

/-- Counting stops. -/
def disable (tracker : Tracker) : Tracker := { tracker with enabled := false }

/-- All counts are forgotten. -/
def reset (tracker : Tracker) : Tracker := { tracker with counts := [] }

/-- The summary of the counts. -/
def stats (tracker : Tracker) : LazyLoadStats where
  total := tracker.counts.foldr (fun entry total => entry.2 + total) 0
  attributes := tracker.counts.length
  repeated := tracker.counts.countP fun entry => tracker.isRepeated entry.2

end Tracker

end LazyMapper
