import Mathlib.Data.List.Nodup
import LazyMapper.Session.State

/-!
# Finding entries

What the entry of a key is after a session is changed, and when an instance is attached to it. A
key has one entry at most, also after an entry is put in (`IdentityMap.Distinct.insert`).
-/

set_option autoImplicit false

namespace LazyMapper

namespace IdentityMap

theorem lookup_entry (key other : Key) (entry : Entry) (rest : List (Key × Entry)) :
    ((other, entry) :: rest).lookup key = if key = other then some entry else rest.lookup key := by
  rw [List.lookup_cons]
  by_cases same : key = other
  · rw [if_pos same, beq_iff_eq.mpr same]
  · rw [if_neg same, beq_eq_false_iff_ne.mpr same]

theorem find?_insert (map : IdentityMap) (key other : Key) (entry : Entry) :
    (map.insert key entry).find? other = if other = key then some entry else map.find? other := by
  obtain ⟨entries⟩ := map
  simp only [insert, find?]
  induction entries with
  | nil => exact lookup_entry other key entry []
  | cons item rest ih =>
      obtain ⟨name, found⟩ := item
      rw [insertInto]
      by_cases here : key = name
      · subst here
        rw [if_pos rfl, lookup_entry, lookup_entry]
        by_cases same : other = key
        · rw [if_pos same, if_pos same]
        · rw [if_neg same, if_neg same, if_neg same]
      · rw [if_neg here, lookup_entry, lookup_entry, ih]
        by_cases there : other = name
        · subst there
          rw [if_pos rfl, if_pos rfl, if_neg (Ne.symm here)]
        · rw [if_neg there, if_neg there]

@[simp] theorem find?_mapEntries (map : IdentityMap) (change : Entry → Entry) (key : Key) :
    (map.mapEntries change).find? key = (map.find? key).map change := by
  obtain ⟨entries⟩ := map
  simp only [mapEntries, find?]
  induction entries with
  | nil => rfl
  | cons item rest ih =>
      obtain ⟨name, found⟩ := item
      rw [List.map_cons, lookup_entry, lookup_entry, ih]
      split <;> rfl

/-- Every key has one entry at most. -/
def Distinct (map : IdentityMap) : Prop := (map.entries.map Prod.fst).Nodup

variable {map : IdentityMap} {key : Key} {entry : Entry}

/-- The keys after an entry is put in. -/
theorem keys_insertInto (entries : List (Key × Entry)) :
    (insertInto key entry entries).map Prod.fst =
      if key ∈ entries.map Prod.fst then entries.map Prod.fst
      else entries.map Prod.fst ++ [key] := by
  induction entries with
  | nil => rfl
  | cons item rest ih =>
      obtain ⟨other, found⟩ := item
      rw [insertInto]
      split
      · rename_i same
        subst same
        simp
      · rename_i apart
        rw [List.map_cons, ih, List.map_cons]
        simp only [List.mem_cons, apart, false_or]
        split <;> rfl

theorem Distinct.insert (distinct : map.Distinct) (key : Key) (entry : Entry) :
    (map.insert key entry).Distinct := by
  rw [Distinct, IdentityMap.insert, keys_insertInto]
  split
  · exact distinct
  · rename_i absent
    exact List.Nodup.append distinct (List.nodup_singleton key) (by simpa using absent)

theorem Distinct.mapEntries (distinct : map.Distinct) (change : Entry → Entry) :
    (map.mapEntries change).Distinct := by
  rw [Distinct, IdentityMap.mapEntries, List.map_map]
  exact distinct

/-- A key that has an entry has no other one. -/
theorem Distinct.filter_eq (distinct : map.Distinct) (found : map.find? key = some entry) :
    map.entries.filter (·.1 = key) = [(key, entry)] := by
  obtain ⟨front, back, listed, absent⟩ := List.lookup_eq_some_iff.mp found
  rw [Distinct, listed] at distinct
  simp only [List.map_append, List.map_cons, List.nodup_middle, List.nodup_cons, List.mem_append,
    List.mem_map, not_or, not_exists, not_and] at distinct
  have others (items : List (Key × Entry)) (apart : ∀ item ∈ items, ¬ item.1 = key) :
      items.filter (·.1 = key) = [] :=
    List.filter_eq_nil_iff.mpr fun item member => by simpa using apart item member
  rw [listed, List.filter_append, others front distinct.1.1,
    List.filter_cons_of_pos (by simp), others back distinct.1.2]
  rfl

/-- The entries listed are those found. -/
theorem Distinct.find?_eq (distinct : map.Distinct) (listed : (key, entry) ∈ map.entries) :
    map.find? key = some entry := by
  obtain ⟨front, back, same⟩ := List.append_of_mem listed
  rw [Distinct, same] at distinct
  simp only [List.map_append, List.map_cons, List.nodup_middle, List.nodup_cons, List.mem_append,
    List.mem_map, not_or, not_exists, not_and] at distinct
  refine List.lookup_eq_some_iff.mpr ⟨front, back, same, fun item member => ?_⟩
  exact bne_iff_ne.mpr fun same => distinct.1.1 item member same.symm

end IdentityMap

namespace Session

variable (session : Session) {inst : Instance} {entry : Entry}

theorem find?_withEntry (key other : Key) (entry : Entry) :
    (session.withEntry key entry).identities.find? other =
      if other = key then some entry else session.identities.find? other :=
  session.identities.find?_insert key other entry

/-- An instance is attached to the entry of its key when that has its handle number and is not
detached. -/
theorem attached?_eq_some :
    session.attached? inst = some entry ↔
      session.identities.find? inst.key = some entry ∧ entry.handle = inst.handle ∧
        entry.state ≠ .detached := by
  simp only [attached?, entryOf?, Option.filter_eq_some_iff, beq_iff_eq, bne_iff_ne, and_assoc]

theorem attached_eq_ok :
    session.attached inst = .ok entry ↔ session.attached? inst = some entry := by
  unfold attached
  split
  · rename_i found there
    rw [there]
    exact ⟨fun same => congrArg some (Except.ok.inj same),
      fun same => congrArg Except.ok (Option.some.inj same)⟩
  · rename_i there
    rw [there]
    exact ⟨nofun, nofun⟩

/-! ## Models met -/

theorem meet_identities (model : Model) :
    (session.meet model).identities = session.identities := by
  unfold meet
  split <;> rfl

/-- What a session remembers for a table after it has met a model: what it did before, or the key
positions of the model if there was nothing. -/
theorem lookup_meet (model : Model) (table : String) :
    (session.meet model).keyIndices.lookup table =
      (session.keyIndices.lookup table).or
        (if table = model.table then some model.entity.keyIndices else none) := by
  unfold meet
  split
  · rename_i known
    by_cases same : table = model.table
    · subst same
      rw [Option.or_of_isSome known]
    · rw [if_neg same, Option.or_none]
  · dsimp only
    rw [List.lookup_append, List.lookup_cons]
    by_cases same : table = model.table
    · rw [if_pos same, beq_iff_eq.mpr same]
    · rw [if_neg same, beq_eq_false_iff_ne.mpr same]
      rfl

theorem meet_remembers (model : Model) :
    ((session.meet model).keyIndices.lookup model.table).isSome := by
  rw [lookup_meet, if_pos rfl]
  cases session.keyIndices.lookup model.table <;> rfl

end Session

end LazyMapper
