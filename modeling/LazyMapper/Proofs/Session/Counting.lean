import LazyMapper.Session.Tracker
import Mathlib.Algebra.BigOperators.Finprod
import Mathlib.Data.List.Induction
import Mathlib.Data.Set.Card

/-!
# Counts of lazy loads and the calls they come from

A tracker that starts without counts knows no more than its calls say. A recorded load counts when
counting was on at its call and nothing has been forgotten since, and the count of an attribute is
the number of calls that count for it (`Tracker.loads`). One call changes this number as it changes
the count that the tracker keeps (`Tracker.Follows.perform`), so after any calls the two agree, the
summary is one of the calls, and the answer to a call says whether the number has come to the
threshold (`Tracker.counts_trace`). As the number only grows until counts are forgotten, it comes to
the threshold once.
-/

set_option autoImplicit false

namespace LazyMapper.Tracker

/-! ## Calls -/

/-- A call of a tracker that may change it. -/
inductive Call where
  | record (table name : String)
  | enable
  | disable
  | reset
deriving DecidableEq

/-- What a call answers, if it answers anything, and the tracker after it. -/
def perform (tracker : Tracker) : Call → Option Bool × Tracker
  | .record table name =>
    let (reached, tracker) := tracker.record table name
    (some reached, tracker)
  | .enable => (none, tracker.enable)
  | .disable => (none, tracker.disable)
  | .reset => (none, tracker.reset)

/-- The tracker after calls, one after the other. -/
def after (tracker : Tracker) (calls : List Call) : Tracker :=
  calls.foldl (fun tracker call => (tracker.perform call).2) tracker

/-- What calls answer, one after the other. -/
def answers : Tracker → List Call → List (Option Bool)
  | _, [] => []
  | tracker, call :: rest => (tracker.perform call).1 :: answers (tracker.perform call).2 rest

theorem after_concat (tracker : Tracker) (calls : List Call) (last : Call) :
    tracker.after (calls ++ [last]) = ((tracker.after calls).perform last).2 := by
  rw [after, List.foldl_append, ← after]
  rfl

/-- A call answers what it does after the calls before it. -/
theorem getElem?_answers (tracker : Tracker) (calls : List Call) (place : Nat) :
    (tracker.answers calls)[place]? =
      calls[place]?.map fun call => ((tracker.after (calls.take place)).perform call).1 := by
  induction calls generalizing tracker place with
  | nil => rfl
  | cons call rest ih =>
      cases place with
      | zero => rfl
      | succ place =>
          rw [answers, List.getElem?_cons_succ, List.getElem?_cons_succ, ih]
          rfl

/-! ## Loads in a sequence of calls -/

/-- Whether counting is on after a call, if the call says so. -/
def Call.switch? : Call → Option Bool
  | .enable => some true
  | .disable => some false
  | .record .. | .reset => none

/-- Counting is on after calls: the last one to switch it has switched it on, or none has. -/
def counting (calls : List Call) : Bool :=
  (calls.filterMap Call.switch?).getLast?.getD true

/-- The call at a place counts for an attribute: it records a load of it, counting is on, and
nothing is forgotten from there on. -/
def CountsAt (calls : List Call) (subject : String × String) (place : Nat) : Prop :=
  calls[place]? = some (.record subject.1 subject.2) ∧ counting (calls.take place) ∧
    .reset ∉ calls.drop place

instance (calls : List Call) (subject : String × String) (place : Nat) :
    Decidable (CountsAt calls subject place) :=
  inferInstanceAs (Decidable (_ ∧ _))

/-- The number of calls that count for an attribute. -/
def loads (calls : List Call) (subject : String × String) : Nat :=
  (List.range calls.length).countP fun place => CountsAt calls subject place

section

variable (calls : List Call) (last : Call) (subject : String × String)

theorem counting_concat :
    counting (calls ++ [last]) = last.switch?.getD (counting calls) := by
  rw [counting, List.filterMap_append]
  cases last <;> simp [Call.switch?, counting]

theorem countsAt_concat_of_lt {place : Nat} (inside : place < calls.length) :
    CountsAt (calls ++ [last]) subject place ↔ CountsAt calls subject place ∧ last ≠ .reset := by
  rw [CountsAt, CountsAt, List.getElem?_append_left inside,
    List.take_append_of_le_length (Nat.le_of_lt inside),
    List.drop_append_of_le_length (Nat.le_of_lt inside), List.mem_append, List.mem_singleton,
    not_or, and_assoc, and_assoc]
  exact and_congr_right' (and_congr_right' (and_congr_right' ne_comm))

theorem countsAt_concat_length :
    CountsAt (calls ++ [last]) subject calls.length ↔
      last = .record subject.1 subject.2 ∧ counting calls := by
  rw [CountsAt, List.getElem?_concat_length, List.take_left, List.drop_left, Option.some_inj,
    List.mem_singleton]
  refine and_congr_right fun recorded => and_iff_left_of_imp fun _ same => ?_
  cases same.trans recorded

/-- **How one call changes the number of loads.** -/
theorem loads_concat :
    loads (calls ++ [last]) subject = (if last = .reset then 0 else loads calls subject) +
      if last = .record subject.1 subject.2 ∧ counting calls then 1 else 0 := by
  have earlier : (List.range calls.length).countP
      (fun place => decide (CountsAt (calls ++ [last]) subject place)) =
        if last = .reset then 0 else loads calls subject := by
    split
    · rename_i forgets
      refine List.countP_eq_zero.mpr fun place member => ?_
      rw [decide_eq_true_eq, countsAt_concat_of_lt calls last subject (List.mem_range.mp member)]
      exact fun kept => kept.2 forgets
    · rename_i keeps
      refine List.countP_congr fun place member => ?_
      rw [decide_eq_true_eq, decide_eq_true_eq,
        countsAt_concat_of_lt calls last subject (List.mem_range.mp member)]
      exact and_iff_left keeps
  rw [loads, List.length_append, List.length_singleton, List.range_succ, List.countP_append,
    earlier, List.countP_singleton]
  simp only [countsAt_concat_length, decide_eq_true_eq]

end

/-- Loads are not taken back unless they are forgotten. -/
theorem loads_le_append (calls more : List Call) (subject : String × String)
    (kept : .reset ∉ more) : loads calls subject ≤ loads (calls ++ more) subject := by
  induction more using List.reverseRecOn with
  | nil => rw [List.append_nil]
  | append_singleton more last ih =>
      rw [List.mem_append, List.mem_singleton, not_or] at kept
      have earlier := ih kept.1
      rw [← List.append_assoc, loads_concat, if_neg (Ne.symm kept.2)]
      omega

/-! ## The counts that a tracker keeps -/

theorem getD_lookup_cons (key other : String × String) (count : Nat)
    (rest : List ((String × String) × Nat)) :
    (List.lookup other ((key, count) :: rest)).getD 0 =
      if other = key then count else (rest.lookup other).getD 0 := by
  rw [List.lookup_cons]
  by_cases same : other = key
  · simp [same]
  · rw [beq_eq_false_iff_ne.mpr same, if_neg same]

theorem getD_lookup_increment (subject other : String × String)
    (counts : List ((String × String) × Nat)) :
    ((increment subject counts).lookup other).getD 0 =
      (counts.lookup other).getD 0 + if other = subject then 1 else 0 := by
  induction counts with
  | nil =>
      rw [increment, getD_lookup_cons, List.lookup_nil, Option.getD_none, Nat.zero_add]
  | cons entry rest ih =>
      obtain ⟨key, count⟩ := entry
      rw [increment]
      split
      · rename_i same
        subst same
        rw [getD_lookup_cons, getD_lookup_cons]
        split <;> rfl
      · rename_i apart
        rw [getD_lookup_cons, getD_lookup_cons, ih]
        split
        · rename_i here
          subst here
          rw [if_neg (Ne.symm apart), Nat.add_zero]
        · rfl

theorem keys_increment (subject : String × String) (counts : List ((String × String) × Nat)) :
    (increment subject counts).map Prod.fst =
      if subject ∈ counts.map Prod.fst then counts.map Prod.fst
      else counts.map Prod.fst ++ [subject] := by
  induction counts with
  | nil => rfl
  | cons entry rest ih =>
      obtain ⟨key, count⟩ := entry
      rw [increment]
      split
      · rename_i same
        subst same
        simp
      · rename_i apart
        rw [List.map_cons, ih, List.map_cons]
        simp only [List.mem_cons, apart, false_or]
        split <;> rfl

theorem pos_of_mem_increment {subject : String × String} {counts : List ((String × String) × Nat)}
    (positive : ∀ entry ∈ counts, 0 < entry.2) :
    ∀ entry ∈ increment subject counts, 0 < entry.2 := by
  induction counts with
  | nil => exact List.forall_mem_singleton.mpr Nat.one_pos
  | cons entry rest ih =>
      obtain ⟨here, others⟩ := List.forall_mem_cons.mp positive
      rw [increment]
      split
      · exact List.forall_mem_cons.mpr ⟨Nat.succ_pos _, others⟩
      · exact List.forall_mem_cons.mpr ⟨here, ih others⟩

/-- The tracker has counted what the calls say: one positive count for every attribute loaded. -/
structure Follows (tracker : Tracker) (calls : List Call) : Prop where
  enabled : tracker.enabled = counting calls
  counts : ∀ subject : String × String, tracker.count subject.1 subject.2 = loads calls subject
  distinct : (tracker.counts.map Prod.fst).Nodup
  positive : ∀ entry ∈ tracker.counts, 0 < entry.2

theorem follows_ofThreshold (threshold : Nat) : (ofThreshold threshold).Follows [] :=
  ⟨rfl, fun _ => rfl, List.nodup_nil, List.forall_mem_nil _⟩

/-- While counting is on a recorded load is counted. -/
theorem record_of_enabled {tracker : Tracker} (on : tracker.enabled = true) (table name : String) :
    (tracker.record table name).2 =
      { tracker with counts := increment (table, name) tracker.counts } := by
  rw [record, if_pos on]

theorem record_of_disabled {tracker : Tracker} (off : tracker.enabled = false)
    (table name : String) : tracker.record table name = (false, tracker) := by
  rw [record, off]
  rfl

@[simp] theorem threshold_perform (tracker : Tracker) (call : Call) :
    (tracker.perform call).2.threshold = tracker.threshold := by
  cases call with
  | record table name =>
      change (tracker.record table name).2.threshold = tracker.threshold
      unfold record
      split <;> rfl
  | enable | disable | reset => rfl

@[simp] theorem threshold_after (tracker : Tracker) (calls : List Call) :
    (tracker.after calls).threshold = tracker.threshold := by
  induction calls using List.reverseRecOn with
  | nil => rfl
  | append_singleton calls last ih => rw [after_concat, threshold_perform, ih]

namespace Follows

variable {tracker : Tracker} {calls : List Call}

/-- Counting is on after a call as the call says, or as it was. -/
theorem enabled_perform (follows : tracker.Follows calls) (call : Call) :
    (tracker.perform call).2.enabled = counting (calls ++ [call]) := by
  rw [counting_concat, ← follows.enabled]
  cases call with
  | record table name =>
      change (tracker.record table name).2.enabled = tracker.enabled
      unfold record
      split <;> rfl
  | enable | disable | reset => rfl

/-- **A call changes the counts as it changes the loads.** -/
theorem perform (follows : tracker.Follows calls) (call : Call) :
    (tracker.perform call).2.Follows (calls ++ [call]) := by
  have enabled := follows.enabled_perform call
  cases call with
  | record table name =>
      change (tracker.record table name).2.Follows _
      cases on : tracker.enabled with
      | true =>
          have counted : counting calls = true := follows.enabled ▸ on
          rw [record_of_enabled on]
          refine ⟨?_, fun subject => ?_, ?_, pos_of_mem_increment follows.positive⟩
          · rw [← enabled]
            change _ = (tracker.record table name).2.enabled
            rw [record_of_enabled on]
          · rw [loads_concat, ← follows.counts]
            refine (getD_lookup_increment (table, name) subject tracker.counts).trans ?_
            obtain ⟨table', name'⟩ := subject
            simp [counted, count, eq_comm]
          · rw [keys_increment]
            split
            · exact follows.distinct
            · rename_i absent
              exact follows.distinct.append (List.nodup_singleton (table, name))
                (List.disjoint_singleton.mpr absent)
      | false =>
          have uncounted : counting calls = false := follows.enabled ▸ on
          rw [record_of_disabled on]
          refine ⟨?_, fun subject => ?_, follows.distinct, follows.positive⟩
          · rw [counting_concat]
            exact follows.enabled
          · rw [loads_concat, follows.counts]
            simp [uncounted]
  | enable | disable =>
      refine ⟨enabled, fun subject => ?_, follows.distinct, follows.positive⟩
      rw [loads_concat]
      exact follows.counts subject
  | reset =>
      refine ⟨enabled, fun subject => ?_, List.nodup_nil, List.forall_mem_nil _⟩
      rw [loads_concat]
      rfl

/-- **A run counts the loads of its calls.** -/
theorem ofThreshold_after (threshold : Nat) (calls : List Call) :
    ((ofThreshold threshold).after calls).Follows calls := by
  induction calls using List.reverseRecOn with
  | nil => exact follows_ofThreshold threshold
  | append_singleton calls last ih =>
      rw [after_concat]
      exact ih.perform last

/-- A recorded load answers whether it is counted and brings the loads to the threshold. -/
theorem record_reaches (follows : tracker.Follows calls) (table name : String) :
    (tracker.perform (.record table name)).1 = some true ↔ counting calls ∧
      0 < tracker.threshold ∧
        loads (calls ++ [.record table name]) (table, name) = tracker.threshold := by
  have after := (follows.perform (.record table name)).counts (table, name)
  rw [← after, ← follows.enabled]
  unfold Tracker.perform record
  cases tracker.enabled with
  | false => simp
  | true => simp

/-! ## The summary -/

theorem loads_of_mem (follows : tracker.Follows calls) {entry : (String × String) × Nat}
    (member : entry ∈ tracker.counts) : loads calls entry.1 = entry.2 := by
  obtain ⟨front, back, listed⟩ := List.append_of_mem member
  have distinct := follows.distinct
  rw [listed, List.map_append, List.map_cons] at distinct
  have found : tracker.counts.lookup entry.1 = some entry.2 := by
    refine List.lookup_eq_some_iff.mpr ⟨front, back, listed, fun other earlier => ?_⟩
    refine bne_iff_ne.mpr fun same => ?_
    have apart := (List.nodup_append.mp distinct).2.2
    exact apart other.1 (List.mem_map_of_mem earlier) entry.1 List.mem_cons_self same.symm
  rw [← follows.counts, count, found, Option.getD_some]

/-- The attributes with a count are those that were loaded. -/
theorem mem_keys_iff (follows : tracker.Follows calls) (subject : String × String) :
    subject ∈ tracker.counts.map Prod.fst ↔ 0 < loads calls subject := by
  constructor
  · intro member
    obtain ⟨entry, listed, rfl⟩ := List.mem_map.mp member
    rw [follows.loads_of_mem listed]
    exact follows.positive entry listed
  · intro loaded
    by_contra absent
    have missing : tracker.counts.lookup subject = none := by
      refine List.lookup_eq_none_iff.mpr fun entry member => ?_
      refine bne_iff_ne.mpr fun same => ?_
      exact absent (same ▸ List.mem_map_of_mem member)
    rw [← follows.counts, count, missing] at loaded
    exact Nat.lt_irrefl 0 loaded

theorem coe_toFinset_keys (follows : tracker.Follows calls) :
    ((tracker.counts.map Prod.fst).toFinset : Set (String × String)) =
      {subject | 0 < loads calls subject} := by
  ext subject
  rw [List.coe_toFinset, Set.mem_ofPred_eq, Set.mem_ofPred_eq, follows.mem_keys_iff]

theorem total_eq (follows : tracker.Follows calls) :
    tracker.stats.total = ∑ᶠ subject, loads calls subject := by
  have support : Function.support (loads calls) ⊆
      ((tracker.counts.map Prod.fst).toFinset : Set (String × String)) := by
    rw [follows.coe_toFinset_keys]
    exact fun subject loaded => Nat.pos_of_ne_zero loaded
  have own : (tracker.counts.map Prod.fst).map (loads calls) = tracker.counts.map Prod.snd := by
    rw [List.map_map]
    exact List.map_congr_left fun entry member => follows.loads_of_mem member
  rw [finsum_eq_sum_of_support_subset _ support, List.sum_toFinset _ follows.distinct, own,
    List.sum, List.foldr_map]
  rfl

theorem attributes_eq (follows : tracker.Follows calls) :
    tracker.stats.attributes = {subject | 0 < loads calls subject}.ncard := by
  rw [← follows.coe_toFinset_keys, Set.ncard_coe_finset,
    List.toFinset_card_of_nodup follows.distinct, List.length_map]
  rfl

theorem repeated_eq (follows : tracker.Follows calls) :
    tracker.stats.repeated =
      {subject | 0 < tracker.threshold ∧ tracker.threshold ≤ loads calls subject}.ncard := by
  let repeats := tracker.counts.filter fun entry => tracker.isRepeated entry.2
  have distinct : (repeats.map Prod.fst).Nodup :=
    follows.distinct.sublist (List.filter_sublist.map Prod.fst)
  have same : ((repeats.map Prod.fst).toFinset : Set (String × String)) =
      {subject | 0 < tracker.threshold ∧ tracker.threshold ≤ loads calls subject} := by
    ext subject
    rw [List.coe_toFinset, Set.mem_ofPred_eq, Set.mem_ofPred_eq, List.mem_map]
    constructor
    · rintro ⟨entry, member, rfl⟩
      obtain ⟨member, repeated⟩ := List.mem_filter.mp member
      rw [follows.loads_of_mem member]
      simpa [isRepeated] using repeated
    · rintro ⟨positive, reached⟩
      have loaded := Nat.lt_of_lt_of_le positive reached
      obtain ⟨entry, member, rfl⟩ := List.mem_map.mp ((follows.mem_keys_iff subject).mpr loaded)
      rw [follows.loads_of_mem member] at reached
      exact ⟨entry, List.mem_filter.mpr ⟨member, by simpa [isRepeated] using ⟨positive, reached⟩⟩,
        rfl⟩
  rw [← same, Set.ncard_coe_finset, List.toFinset_card_of_nodup distinct, List.length_map]
  exact List.countP_eq_length_filter

end Follows

/-! ## Reaching the threshold -/

theorem answers_true_iff (threshold : Nat) (calls : List Call) (place : Nat) :
    ((ofThreshold threshold).answers calls)[place]? = some (some true) ↔
      ∃ table name, calls[place]? = some (.record table name) ∧ counting (calls.take place) ∧
        0 < threshold ∧ loads (calls.take (place + 1)) (table, name) = threshold := by
  have follows := Follows.ofThreshold_after threshold (calls.take place)
  have kept := (ofThreshold threshold).threshold_after (calls.take place)
  rw [getElem?_answers, List.take_add_one]
  cases calls[place]? with
  | none => simp
  | some call =>
      rw [Option.map_some, Option.some_inj, Option.toList_some]
      cases call with
      | record table name =>
          rw [follows.record_reaches, kept]
          constructor
          · exact fun reached => ⟨table, name, rfl, reached⟩
          · rintro ⟨table, name, same, reached⟩
            cases same
            exact reached
      | enable | disable | reset => simp [Tracker.perform]

/-- The threshold is not reached twice unless counts are forgotten in between. -/
theorem exists_reset_between {threshold : Nat} {calls : List Call} {first later : Nat}
    {table name : String} (order : first < later)
    (recorded : calls[later]? = some (.record table name))
    (counted : counting (calls.take later))
    (reached : loads (calls.take (first + 1)) (table, name) = threshold)
    (again : loads (calls.take (later + 1)) (table, name) = threshold) :
    ∃ between, first < between ∧ between < later ∧ calls[between]? = some .reset := by
  by_contra none
  have kept : .reset ∉ (calls.take later).drop (first + 1) := by
    intro member
    obtain ⟨offset, there⟩ := List.mem_iff_getElem?.mp member
    rw [List.getElem?_drop] at there
    have inside := (List.getElem?_eq_some_iff.mp there).1
    rw [List.length_take] at inside
    have before : first + 1 + offset < later := by omega
    rw [List.getElem?_take_of_lt before] at there
    exact none ⟨first + 1 + offset, by omega, before, there⟩
  have split : calls.take (first + 1) ++ (calls.take later).drop (first + 1) =
      calls.take later := by
    have front : (calls.take later).take (first + 1) = calls.take (first + 1) := by
      rw [List.take_take, Nat.min_eq_left order]
    rw [← front, List.take_append_drop]
  have grown := loads_le_append (calls.take (first + 1)) _ (table, name) kept
  rw [split, reached] at grown
  rw [List.take_add_one, recorded, Option.toList_some, loads_concat] at again
  simp only [reduceCtorEq, if_false, counted, and_self, if_true] at again
  omega

/-- **A tracker counts the trace of its calls.** After any calls of a tracker that starts without
counts, the count of an attribute is the number of its loads that were recorded while counting was
on and after counts were forgotten last. The summary has the sum of these numbers, how many are
positive, and how many have come to the threshold, if the threshold is positive. A call answers that
the threshold is reached exactly when it records a load while counting is on and thereby brings the
loads of the attribute to a positive threshold; for one attribute that happens a second time only
when counts have been forgotten in between. -/
theorem counts_trace (threshold : Nat) (calls : List Call) :
    let tracker := (ofThreshold threshold).after calls
    let answers := (ofThreshold threshold).answers calls
    (∀ table name, tracker.count table name = loads calls (table, name)) ∧
    {subject | 0 < loads calls subject}.Finite ∧
    tracker.stats.total = ∑ᶠ subject, loads calls subject ∧
    tracker.stats.attributes = {subject | 0 < loads calls subject}.ncard ∧
    tracker.stats.repeated =
      {subject | 0 < threshold ∧ threshold ≤ loads calls subject}.ncard ∧
    (∀ place : Nat, answers[place]? = some (some true) ↔
      ∃ table name, calls[place]? = some (.record table name) ∧ counting (calls.take place) ∧
        0 < threshold ∧ loads (calls.take (place + 1)) (table, name) = threshold) ∧
    ∀ first later : Nat, first < later → calls[first]? = calls[later]? →
      answers[first]? = some (some true) → answers[later]? = some (some true) →
        ∃ between, first < between ∧ between < later ∧ calls[between]? = some .reset := by
  intro tracker answers
  have follows : tracker.Follows calls := Follows.ofThreshold_after threshold calls
  have kept : tracker.threshold = threshold := (ofThreshold threshold).threshold_after calls
  refine ⟨fun table name => follows.counts (table, name), ?_, follows.total_eq,
    follows.attributes_eq, kept ▸ follows.repeated_eq, answers_true_iff threshold calls, ?_⟩
  · rw [← follows.coe_toFinset_keys]
    exact Finset.finite_toSet _
  · intro first later order same reached again
    obtain ⟨table, name, recorded, -, -, brought⟩ :=
      (answers_true_iff threshold calls first).mp reached
    obtain ⟨table', name', recorded', counted, -, brought'⟩ :=
      (answers_true_iff threshold calls later).mp again
    obtain ⟨rfl, rfl⟩ : table = table' ∧ name = name' := by
      simpa [recorded, recorded'] using same
    exact exists_reset_between order recorded' counted brought brought'

/-- Two loads of a summary reach a threshold of two, and two more do after the counts have been
forgotten. A load while counting is off does not count. -/
theorem summary_reaches_two_again :
    let load := Call.record "books" "summary"
    let calls := [load, .disable, load, .enable, load, .reset, load, load]
    let answers := (ofThreshold 2).answers calls
    answers[4]? = some (some true) ∧ answers[7]? = some (some true) ∧
      ∃ between : Nat, 4 < between ∧ between < 7 ∧ calls[between]? = some .reset := by
  intro load calls answers
  have first : answers[4]? = some (some true) := by decide
  have later : answers[7]? = some (some true) := by decide
  exact ⟨first, later, (counts_trace 2 calls).2.2.2.2.2.2 4 7 (by decide) rfl first later⟩

end LazyMapper.Tracker
