import HootLb.Native.Admin
import HootLb.Native.Watcher

/-!
# Concurrent updaters

Admin requests, poller runs and reloads change the snapshot concurrently, without
a common lock: each loads the pointer, builds a new snapshot from what it loaded,
and swaps the pointer. Here these three are separate atomic steps, so that any
number of updaters can be interleaved. The parts are those of the functions that
run an updater from beginning to end.
-/

namespace HootLb

open Config HootLb.Runtime HootLb.Reload HootLb.Admin

/-- One run of an updater. A poll is given with the poller's memory. -/
inductive Update where
  | addBackend (poolName : String) (body : Option AddBackendRequest)
  | removeBackend (poolName address : String)
  | poll (p : Poller) (resolved : Except String (List Backend))
  | reload (env : ReloadEnv)

/-- What an updater reports when it has finished. -/
inductive Answer where
  | response (r : Response)
  | polled (o : PollOutcome)
  | reloaded (why : Option ReloadError)
  deriving DecidableEq

/-- What an updater is going to build. -/
inductive Plan where
  | update (u : PoolUpdate) (answer : Answer)
  | rebuild (cfg : Config) (env : ReloadEnv)

section

variable (cfg : Config) (w : Watcher)

/-- Run an updater from beginning to end. -/
def Update.run (σ : Store) : Update → Answer × Store
  | .addBackend poolName body =>
    let (r, σ) := Admin.addBackend cfg poolName body σ
    (.response r, σ)
  | .removeBackend poolName address =>
    let (r, σ) := Admin.removeBackend cfg poolName address σ
    (.response r, σ)
  | .poll p resolved =>
    let (o, _, σ) := p.poll resolved σ
    (.polled o, σ)
  | .reload env =>
    let (e, σ) := w.checkAndReload env σ
    (.reloaded e, σ)

/-- What an updater does up to its build, given the pools of the snapshot it
    loads: finish early, or go on with a plan. -/
def Update.decide (pools : String → Option PoolState) : Update → Answer ⊕ Plan
  | .addBackend poolName body =>
    match addBackendCheck cfg poolName body with
    | .error r => .inl (.response r)
    | .ok (poolCfg, req) =>
      match addBackendPlan req (pools poolName) with
      | .error r => .inl (.response r)
      | .ok newBackends =>
        .inr (.update ⟨poolName, newBackends, poolCfg⟩ (.response { status := 201, error := none }))
  | .removeBackend poolName address =>
    match removeBackendCheck cfg poolName with
    | .error r => .inl (.response r)
    | .ok poolCfg =>
      match removeBackendPlan address (pools poolName) with
      | .error r => .inl (.response r)
      | .ok newBackends =>
        .inr (.update ⟨poolName, newBackends, poolCfg⟩ (.response { status := 204, error := none }))
  | .poll p resolved =>
    match p.pollCheck resolved with
    | .error o => .inl (.polled o)
    | .ok backends => .inr (.update ⟨p.poolName, backends, p.cfg⟩ (.polled .updated))
  | .reload env =>
    match w.host.load env.file with
    | .error e => .inl (.reloaded (some (.load e)))
    | .ok newCfg => .inr (.rebuild newCfg env)

/-- A snapshot that is ready to be swapped in, with the checkers to start before
    and to stop after the swap. -/
structure Built where
  new : Snapshot
  start : List PoolRef
  stop : List PoolRef

/-- The build. A reload that is rejected here answers without a snapshot. -/
def Plan.build (old : Snapshot) (heap : Heap) : Plan → (Answer × Option Built) × Heap
  | .update u answer =>
    let (new, heap) := updatePoolBackends old u.poolName u.newBackends u.cfg heap
    ((answer, some ⟨new, (new.checkers.lookup u.poolName).toList,
      (old.checkers.lookup u.poolName).toList⟩), heap)
  | .rebuild newCfg env =>
    match w.rebuild newCfg env old heap with
    | (.error e, heap) => ((.reloaded (some e), none), heap)
    | (.ok new, heap) => ((.reloaded none, some ⟨new, checkerRefs new, checkerRefs old⟩), heap)

/-- Start the new checkers, swap, stop the old checkers. -/
def Built.swap (b : Built) (σ : Store) : Store := σ.install σ.heap b.new b.start b.stop

/-- How far an updater has come. `old` is the snapshot it loaded. -/
inductive Stage where
  | ready
  | loaded (old : Snapshot) (plan : Plan)
  | built (old : Snapshot) (b : Built) (answer : Answer)
  | finished (answer : Answer)

/-- The shared state and the stage of each of `n` updaters. -/
structure Concurrent (n : Nat) where
  store : Store
  stage : Fin n → Stage

/-- All updaters before their first step. -/
def Concurrent.init (n : Nat) (σ : Store) : Concurrent n := { store := σ, stage := fun _ => .ready }

variable {n : Nat}

/-- Put an updater into a stage. -/
def Concurrent.put (c : Concurrent n) (i : Fin n) (stage : Stage) (store : Store) : Concurrent n :=
  { store, stage := Function.update c.stage i stage }

/-- One step of updater `i`: load, build or swap. -/
def Concurrent.step (updates : Fin n → Update) (c : Concurrent n) (i : Fin n) : Concurrent n :=
  match c.stage i with
  | .ready =>
    match (updates i).decide cfg w c.store.pool? with
    | .inl answer => c.put i (.finished answer) c.store
    | .inr plan => c.put i (.loaded c.store.current plan) c.store
  | .loaded old plan =>
    match plan.build w old c.store.heap with
    | ((answer, none), heap) => c.put i (.finished answer) { c.store with heap }
    | ((answer, some b), heap) => c.put i (.built old b answer) { c.store with heap }
  -- the swap does not look at what it replaces
  | .built _ b answer => c.put i (.finished answer) (b.swap c.store)
  | .finished _ => c

/-- Steps in the order of a schedule. -/
def Concurrent.exec (updates : Fin n → Update) (c : Concurrent n) (schedule : List (Fin n)) :
    Concurrent n :=
  schedule.foldl (Concurrent.step cfg w updates) c

/-- The same updaters one after another, with their answers. -/
def runUpdates (updates : Fin n → Update) : List (Fin n) → Store → List (Fin n × Answer) × Store
  | [], σ => ([], σ)
  | i :: rest, σ =>
    let (answer, σ) := (updates i).run cfg w σ
    let (answers, σ) := runUpdates updates rest σ
    ((i, answer) :: answers, σ)

end

end HootLb
