import LazyMapper.Json.Form
import LazyMapper.Plan.Basic
import LazyMapper.Session.State

/-!
# Reports

The JSON forms of load modes, load plans, settings and the state of a session, for logs and for
inspection. A mode is an object whose entry `mode` names it, and a deferred group stands beside
it. Settings are written under the names by which they are read (`Config.Setting.name`).
-/

set_option autoImplicit false

namespace LazyMapper

/-! ## Modes and plans -/

instance : ToJson LoadMode where
  toJson
    | .eager => .ofEntries [("mode", "eager")]
    | .deferred => .ofEntries [("mode", "deferred")]
    | .deferredGroup group => .ofEntries [("mode", "deferred_group"), ("group", group)]
    | .raiseOnAccess => .ofEntries [("mode", "raise_on_access")]

instance : ToJson LoadPolicy where
  toJson policy := .ofEntries [("name", policy.name), ("default_mode", policy.defaultMode)]

/-- The entries for a mode in the form of what has it. -/
def ResolvedMode.entries : ResolvedMode → List (String × Json)
  | .eager => [("mode", "eager")]
  | .deferred group? => [("mode", "deferred"), ("group", group?)]
  | .raising => [("mode", "raise")]

instance : ToJson ResolvedMode := ⟨fun mode => .ofEntries mode.entries⟩

instance : ToJson PlannedAttribute where
  toJson planned :=
    .ofEntries <| List.append planned.mode.entries [
      ("name", planned.name),
      ("column", planned.column),
      ("primary_key", planned.primaryKey)]

/-- The entity of a plan is named by its table. -/
instance : ToJson LoadPlan where
  toJson plan := .ofEntries [("entity", plan.entity.table), ("attributes", plan.attributes)]

/-! ## Sessions -/

instance : ToJson Config where
  toJson config :=
    .ofEntries [
      (Config.Setting.autoBegin.name, config.autoBegin),
      (Config.Setting.expireOnCommit.name, config.expireOnCommit),
      (Config.Setting.lazyLoadThreshold.name, config.lazyLoadThreshold),
      (Config.Setting.dialect.name, config.dialect.name)]

instance : ToJson EntryState where
  toJson
    | .persistent => "persistent"
    | .expired => "expired"
    | .deleted => "deleted"
    | .detached => "detached"

instance : ToJson LazyLoadStats where
  toJson stats :=
    .ofEntries [
      ("total", stats.total),
      ("attributes", stats.attributes),
      ("repeated", stats.repeated)]

instance : ToJson SessionSummary where
  toJson summary :=
    .ofEntries [
      ("tracked", summary.tracked),
      ("expired", summary.expired),
      ("deleted", summary.deleted),
      ("detached", summary.detached),
      ("lazy_loads", summary.lazyLoads),
      ("in_transaction", summary.inTransaction)]

end LazyMapper
