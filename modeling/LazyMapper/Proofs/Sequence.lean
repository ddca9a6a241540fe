import Mathlib.Data.List.Forall2

/-!
# Computations in sequence

What the parts of a sequence of computations gave when the whole of it succeeded, for
computations without a state, and rules for how computations with a state end. A computation
with a state changes it also when it fails, so an end is a result with a state or an error with
a state (`Ends`). The rules take a computation apart along its text, from its first part on.
-/

set_option autoImplicit false

namespace LazyMapper

/-! ## Without a state -/

section Stateless

variable {ε α β : Type}

/-- A sequence that succeeds has a first part that does. -/
theorem exists_of_bind_eq_ok {first : Except ε α} {next : α → Except ε β} {result : β}
    (ok : first >>= next = .ok result) :
    ∃ middle, first = .ok middle ∧ next middle = .ok result := by
  cases first with
  | error fault => cases ok
  | ok middle => exact ⟨middle, rfl, ok⟩

theorem bind_eq_ok_iff {first : Except ε α} {next : α → Except ε β} {result : β} :
    first >>= next = .ok result ↔ ∃ middle, first = .ok middle ∧ next middle = .ok result := by
  refine ⟨exists_of_bind_eq_ok, ?_⟩
  rintro ⟨middle, here, later⟩
  rw [here]
  exact later

/-- A sequence that fails does so in its first part or behind it. -/
theorem bind_eq_error_iff {first : Except ε α} {next : α → Except ε β} {error : ε} :
    first >>= next = .error error ↔
      first = .error error ∨ ∃ middle, first = .ok middle ∧ next middle = .error error := by
  cases first with
  | error other =>
      refine ⟨fun same => .inl (congrArg _ (Except.error.inj same)), ?_⟩
      rintro (same | ⟨middle, same, _⟩)
      · exact congrArg _ (Except.error.inj same)
      · cases same
  | ok middle =>
      refine ⟨fun failed => .inr ⟨middle, rfl, failed⟩, ?_⟩
      rintro (same | ⟨other, same, failed⟩)
      · cases same
      · rwa [← Except.ok.inj same] at failed

/-- A check in front of a computation passes, and the computation succeeds. -/
theorem check_bind_eq_ok_iff {check : Except ε Unit} {next : Unit → Except ε β} {result : β} :
    check >>= next = .ok result ↔ check = .ok () ∧ next () = .ok result := by
  rw [bind_eq_ok_iff]
  exact ⟨fun ⟨⟨⟩, here, later⟩ => ⟨here, later⟩, fun ⟨here, later⟩ => ⟨(), here, later⟩⟩

/-- Computations for the items of a list, one after the other, give one result for each. -/
theorem forall₂_of_mapM_eq_ok {compute : α → Except ε β} {items : List α} {results : List β}
    (ok : items.mapM compute = .ok results) :
    List.Forall₂ (fun item result => compute item = .ok result) items results := by
  induction items generalizing results with
  | nil =>
      rw [List.mapM_nil] at ok
      obtain rfl := Except.ok.inj ok
      exact .nil
  | cons item rest ih =>
      rw [List.mapM_cons] at ok
      obtain ⟨first, here, ok⟩ := exists_of_bind_eq_ok ok
      obtain ⟨others, later, ok⟩ := exists_of_bind_eq_ok ok
      obtain rfl := Except.ok.inj ok
      exact .cons here (ih later)

/-- Computations for the items of a list succeed when each of them does. -/
theorem mapM_succeeds_iff {compute : α → Except ε β} {items : List α} :
    (∃ results, items.mapM compute = .ok results) ↔
      ∀ item ∈ items, ∃ result, compute item = .ok result := by
  induction items with
  | nil => exact iff_of_true ⟨[], rfl⟩ nofun
  | cons item rest ih =>
      rw [List.forall_mem_cons, ← ih, List.mapM_cons]
      constructor
      · rintro ⟨results, ok⟩
        obtain ⟨first, here, ok⟩ := exists_of_bind_eq_ok ok
        obtain ⟨others, later, -⟩ := exists_of_bind_eq_ok ok
        exact ⟨⟨first, here⟩, others, later⟩
      · rintro ⟨⟨first, here⟩, others, later⟩
        exact ⟨first :: others, by rw [here, later]; rfl⟩

/-- Computations for the items of a list fail when one of them does, behind others that succeed. -/
theorem mapM_eq_error_iff {compute : α → Except ε β} {items : List α} {error : ε} :
    items.mapM compute = .error error ↔ ∃ front item back, items = front ++ item :: back ∧
      (∀ earlier ∈ front, ∃ result, compute earlier = .ok result) ∧
        compute item = .error error := by
  constructor
  · intro failed
    induction items with
    | nil => cases failed
    | cons item rest ih =>
        rw [List.mapM_cons, bind_eq_error_iff] at failed
        rcases failed with broken | ⟨first, here, failed⟩
        · exact ⟨[], item, rest, rfl, nofun, broken⟩
        · rcases bind_eq_error_iff.mp failed with later | ⟨_, _, same⟩
          · obtain ⟨front, other, back, rfl, fine, broken⟩ := ih later
            exact ⟨item :: front, other, back, rfl,
              List.forall_mem_cons.mpr ⟨⟨first, here⟩, fine⟩, broken⟩
          · cases same
  · rintro ⟨front, item, back, rfl, fine, broken⟩
    obtain ⟨results, ok⟩ := mapM_succeeds_iff.mpr fine
    rw [List.mapM_append, ok, List.mapM_cons, broken]
    rfl

end Stateless

/-! ## With a state -/

section Stateful

variable {ε σ α β : Type}

/-- A computation started in a state ends with a result and a state of which `good` holds, or
with an error and a state of which `bad` does. -/
def Ends (computation : ExceptT ε (StateM σ) α) (state : σ) (good : α → σ → Prop)
    (bad : ε → σ → Prop) : Prop :=
  match computation.run.run state with
  | (.ok result, after) => good result after
  | (.error error, after) => bad error after

variable {state : σ} {good : α → σ → Prop} {bad : ε → σ → Prop}

/-- A sequence runs its first part and, if this gives a result, the rest in the state it leaves. -/
theorem run_bind (first : ExceptT ε (StateM σ) β) (next : β → ExceptT ε (StateM σ) α)
    (state : σ) : (first >>= next).run.run state =
      match first.run.run state with
      | (.ok middle, after) => (next middle).run.run after
      | (.error error, after) => (.error error, after) := by
  simp only [ExceptT.run_bind, StateT.run_bind]
  cases first.run.run state with
  | mk result after => cases result <;> rfl

/-- A sequence whose first part gives a result runs the rest. -/
theorem run_bind_of_ok {first : ExceptT ε (StateM σ) β} {next : β → ExceptT ε (StateM σ) α}
    {state after : σ} {middle : β} (ran : first.run.run state = (.ok middle, after)) :
    (first >>= next).run.run state = (next middle).run.run after := by
  rw [run_bind, ran]

/-- A sequence whose first part fails ends with it. -/
theorem run_bind_of_error {first : ExceptT ε (StateM σ) β} {next : β → ExceptT ε (StateM σ) α}
    {state after : σ} {error : ε} (ran : first.run.run state = (.error error, after)) :
    (first >>= next).run.run state = (.error error, after) := by
  rw [run_bind, ran]

theorem ends_bind {first : ExceptT ε (StateM σ) β} {next : β → ExceptT ε (StateM σ) α} :
    Ends (first >>= next) state good bad ↔
      Ends first state (fun middle after => Ends (next middle) after good bad) bad := by
  unfold Ends
  rw [run_bind]
  cases first.run.run state with
  | mk result after => cases result <;> rfl

theorem ends_get {good : σ → σ → Prop} :
    Ends (get : ExceptT ε (StateM σ) σ) state good bad ↔ good state state :=
  Iff.rfl

theorem ends_modify {change : σ → σ} {good : PUnit → σ → Prop} :
    Ends (modify change : ExceptT ε (StateM σ) PUnit) state good bad ↔
      good ⟨⟩ (change state) :=
  Iff.rfl

/-- An end of which more is known than asked. -/
theorem Ends.mono {computation : ExceptT ε (StateM σ) α} {good' : α → σ → Prop}
    {bad' : ε → σ → Prop} (ends : Ends computation state good bad)
    (results : ∀ result after, good result after → good' result after)
    (errors : ∀ error after, bad error after → bad' error after) :
    Ends computation state good' bad' := by
  unfold Ends at ends ⊢
  split
  · rename_i result after run
    rw [run] at ends
    exact results result after ends
  · rename_i error after run
    rw [run] at ends
    exact errors error after ends

/-- What a sequence ends with whatever its first part does. -/
theorem Ends.bind_any {first : ExceptT ε (StateM σ) β} {next : β → ExceptT ε (StateM σ) α}
    (later : ∀ middle after, Ends (next middle) after good bad)
    (errors : ∀ error after, bad error after) : Ends (first >>= next) state good bad := by
  rw [ends_bind]
  unfold Ends
  split
  · exact later _ _
  · exact errors _ _

end Stateful

end LazyMapper
