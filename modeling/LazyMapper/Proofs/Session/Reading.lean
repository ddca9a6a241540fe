import LazyMapper.Proofs.Session.Steps

/-!
# What a read leaves

A value that a session loads through an instance can be read from the copy with which the instance
is left (`Action.get_of_loadAttribute`), since the attribute that is accessed is among those that
are fetched for it (`LoadPlan.mem_fetchIndices`).
-/

set_option autoImplicit false

namespace LazyMapper

/-! ## Reading a copy -/

/-- The attribute that is accessed is among those fetched for it. -/
theorem LoadPlan.mem_fetchIndices {plan : LoadPlan} {index : Nat} {loaded : AttributeSet}
    (inside : index < plan.attributes.length) (unloaded : loaded.contains index = false) :
    index ∈ plan.fetchIndices index loaded := by
  unfold fetchIndices
  refine List.mem_filter.mpr ⟨List.mem_range.mpr inside, ?_⟩
  rw [unloaded, Bool.not_false, Bool.and_true, Bool.or_eq_true]
  left
  split
  · rename_i group grouped
    refine List.contains_iff_mem.mpr (List.mem_filter.mpr ⟨List.mem_range.mpr inside, ?_⟩)
    rw [Option.map_eq_some_iff] at grouped
    obtain ⟨planned, here, mode⟩ := grouped
    rw [here, Option.any_some, mode]
    exact beq_self_eq_true _
  · simp

theorem Instance.get_of_loaded {inst : Instance} {name : String} {index : Nat}
    (position : inst.plan.index? name = some index) (loaded : inst.loaded.contains index = true) :
    inst.get name = .ok (some (inst.model.attributeOrNull inst.record name)) := by
  rw [get, Instance.index_eq_ok.mpr position]
  exact if_pos loaded

theorem Instance.loaded_of_get {inst : Instance} {name : String} {value : Value}
    (read : inst.get name = .ok (some value)) :
    ∃ index, inst.plan.index? name = some index ∧ inst.loaded.contains index = true ∧
      value = inst.model.attributeOrNull inst.record name := by
  obtain ⟨index, position, read⟩ := exists_of_bind_eq_ok read
  refine ⟨index, Instance.index_eq_ok.mp position, ?_⟩
  dsimp only at read
  cases loaded : inst.loaded.contains index with
  | true =>
      rw [loaded, if_pos rfl] at read
      exact ⟨rfl, (Option.some.inj (Except.ok.inj read)).symm⟩
  | false =>
      rw [loaded, if_neg Bool.false_ne_true] at read
      split at read <;> cases read

/-- Where a fetch succeeds, the instance has a copy in which the fetched attributes are loaded. -/
theorem Session.receiveFetched_ok {session after : Session} {inst copy : Instance} {name : String}
    {index : Nat} {indices : List Nat} {key : List Value} {rows : List Row} {value : Value}
    (received : session.receiveFetched inst name index indices key rows =
      (.ok value, copy, after)) :
    ∃ entry : Entry, ∃ before : AttributeSet, copy = inst.sync entry ∧
      entry.loaded = before.insertAll indices ∧
      value = inst.model.attributeOrNull entry.record name := by
  unfold receiveFetched at received
  split at received
  · cases received
  · cases received
  · rename_i entry row rest attached
    split at received
    · cases received
    · cases received
      exact ⟨_, entry.loaded, rfl, rfl, rfl⟩

/-- Where an action on an instance succeeds after its query, the step that receives the rows
does. -/
theorem Action.exists_of_afterQuery {α : Type} {inst copy : Instance} {columns : List String}
    {key : List Value} {step : List Row → Session → Except Error α × Instance × Session}
    {result : α} {context after : Context}
    (run : afterQuery inst columns key step context = (.ok result, copy, after)) :
    ∃ rows session session', step rows session = (.ok result, copy, session') := by
  unfold afterQuery at run
  generalize (queryByKey inst columns key).run.run context = answer at run
  obtain ⟨_ | rows, context'⟩ := answer
  · cases run
  · unfold onInstance at run
    dsimp only at run
    generalize received : step rows context'.session = outcome at run
    obtain ⟨_ | received, other, session'⟩ := outcome
    · cases run
    · cases run
      exact ⟨rows, _, _, received⟩

/-- A value that is loaded through an instance can be read from it afterwards. -/
theorem Action.get_of_loadAttribute {inst copy : Instance} {name : String} {value : Value}
    {context after : Context} (run : loadAttribute inst name context = (.ok value, copy, after)) :
    ∃ entry, copy = inst.sync entry ∧
      (copy.loaded.size = copy.plan.attributes.length → copy.get name = .ok (some value)) := by
  unfold loadAttribute at run
  obtain ⟨error, failed⟩ | ⟨index, entry, position, -, ⟨error, failed⟩ | ⟨loaded, read⟩ |
    ⟨unloaded, fetch⟩⟩ := context.session.readRequest_cases inst name
  · rw [failed] at run
    cases run
  · rw [failed] at run
    cases run
  · rw [read] at run
    cases run
    exact ⟨entry, rfl, fun _ => Instance.get_of_loaded position loaded⟩
  · rw [fetch] at run
    obtain ⟨rows, session, session', received⟩ := exists_of_afterQuery run
    obtain ⟨changed, before, rfl, fetched, rfl⟩ := Session.receiveFetched_ok received
    refine ⟨changed, rfl, fun size => Instance.get_of_loaded position ?_⟩
    have inside : index < inst.plan.attributes.length :=
      (List.findIdx?_eq_some_iff_getElem.mp position).1
    have whole : changed.loaded.size = inst.plan.attributes.length := size
    rw [fetched, AttributeSet.size_insertAll] at whole
    change changed.loaded.contains index = true
    rw [fetched, AttributeSet.contains_insertAll]
    exact .inr ⟨LoadPlan.mem_fetchIndices inside unloaded, whole ▸ inside⟩

namespace Program

variable {program : Program} {number : Nat} {connection : Connection}

/-- A value that a program loads through an instance can be read from the instance as it is
left. -/
theorem get_of_load_step [Hashable Digest] {held : Nat} {name : String} {value : Value}
    (ok : (program.step number connection (.load held name)).outcome = .ok (.value value)) :
    ∃ inst entry, program.instances[held]? = some inst ∧
      (program.step number connection (.load held name)).program.instances[held]? =
        some (inst.sync entry) ∧
      (entry.loaded.size = inst.plan.attributes.length →
        (inst.sync entry).get name = .ok (some value)) := by
  cases here : program.sessions[number]? with
  | none =>
      rw [step_of_no_session here] at ok
      cases ok
  | some session =>
      rw [step_of_session here] at ok ⊢
      unfold runOn at ok ⊢
      dsimp only at ok ⊢
      cases there : program.instances[held]? with
      | none =>
          unfold performOn at ok
          rw [there] at ok
          cases ok
      | some inst =>
          generalize run : Action.loadAttribute inst name (program.contextOf session connection) =
            result
          obtain ⟨outcome, copy, after⟩ := result
          rw [performOn_of_instance there run] at ok ⊢
          cases outcome with
          | error => cases ok
          | ok read =>
              cases ok
              obtain ⟨entry, rfl, get⟩ := Action.get_of_loadAttribute run
              exact ⟨inst, entry, rfl,
                List.getElem?_set_self (List.getElem?_eq_some_iff.mp there).1, get⟩

end Program

end LazyMapper
