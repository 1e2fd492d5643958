import HootLb.ForStd.List
import HootLb.Native.Snapshot
import HootLb.Spec.PoolEvents

/-!
# Circuit breaker recovery in a running pool

The breaker leaves its open state only inside `Allow` and `State`. In a running
pool neither is called: proxies pick by the `circuitOpen` flag and report
outcomes through `RecordSuccess` and `RecordFailure`. This module follows one
pool from its construction through any sequence of picks, outcomes, probes,
drains and clock advances, and determines which backends a pool takes back after
their cool-down.

The state of a breaker is described by the outcomes recorded for its address so
far: it is closed with `consecutiveFail` equal to the length of the final streak
of failures, or it has seen `failure_threshold` failures in a row and is open for
good.

## Key results

- `Breaker.tracks_record`: one outcome keeps a breaker in step with its history
- `CircuitInv.apply`: one event of a pool keeps all breakers in step
- `recovers_iff_no_failure_streak`: a reached state honours the cool-down exactly
  when no healthy, undrained backend has been tripped
-/

namespace HootLb.Circuitbreaker

open Config

/-- The outcomes contain as many failures in a row as it takes to open a circuit. -/
def Trips (cb : CircuitBreakerConfig) (outcomes : List Bool) : Prop :=
  List.replicate (max 1 cb.failureThreshold.toNat) false <:+: outcomes

/-- `Trips` of an outcome list that has just grown by one. -/
private theorem trips_concat (cb : CircuitBreakerConfig) (outcomes : List Bool) (ok : Bool) :
    Trips cb (outcomes ++ [ok]) ↔
      Trips cb outcomes ∨
        (ok = false ∧ cb.failureThreshold ≤ (outcomes.streak false + 1 : Int)) := by
  unfold Trips
  rw [List.replicate_infix_concat_iff]
  cases ok with
  | false =>
    rw [List.streak_concat_self]
    have : max 1 cb.failureThreshold.toNat ≤ outcomes.streak false + 1 ↔
        cb.failureThreshold ≤ (outcomes.streak false + 1 : Int) := by omega
    simp [this]
  | true =>
    rw [List.streak_concat_of_ne false true outcomes (by simp)]
    simp

/-- A breaker in step with the outcomes recorded on it: closed and counting the
    final streak of failures, or tripped and open since. -/
structure Breaker.Tracks (cb : CircuitBreakerConfig) (b : Breaker) (flag : Bool)
    (outcomes : List Bool) : Prop where
  threshold : b.failureThreshold = cb.failureThreshold
  cooldown : b.openDuration = cb.openDuration
  status :
    (b.state = .closed ∧ b.consecutiveFail = outcomes.streak false ∧ b.openedAt = none ∧
      flag = false ∧ ¬ Trips cb outcomes) ∨
    (b.state = .open ∧ b.openedAt.isSome ∧ flag = true ∧ Trips cb outcomes)

/-- A new breaker is in step with the empty history. -/
theorem Breaker.tracks_newBreaker (cb : CircuitBreakerConfig) :
    (newBreaker cb.failureThreshold cb.openDuration cb.halfOpenMaxProbes).Tracks cb false [] := by
  refine ⟨rfl, rfl, Or.inl ⟨rfl, by simp [newBreaker], rfl, rfl, ?_⟩⟩
  simp [Trips]

/-- The breaker operation behind one reported outcome. -/
def Breaker.record (now : Time) (ok : Bool) : Breaker → Bool → Breaker × Bool :=
  if ok then Breaker.recordSuccess else Breaker.recordFailure now

/-- Recording one outcome keeps a breaker in step with its history. -/
theorem Breaker.tracks_record (cb : CircuitBreakerConfig) (now : Time) (ok : Bool) (b : Breaker)
    (flag : Bool) (outcomes : List Bool) (h : b.Tracks cb flag outcomes) :
    (b.record now ok flag).1.Tracks cb (b.record now ok flag).2 (outcomes ++ [ok]) := by
  obtain ⟨hthr, hcool, hstatus⟩ := h
  rcases hstatus with ⟨hst, hcount, hopened, hflag, hnot⟩ | ⟨hst, hopened, hflag, htrip⟩
  · cases ok with
    | true =>
      -- a success resets the streak
      simp only [record, if_true, recordSuccess, hst]
      refine ⟨hthr, hcool, Or.inl ⟨rfl, ?_, hopened, hflag, ?_⟩⟩
      · rw [List.streak_concat_of_ne false true outcomes (by simp)]; rfl
      · rw [trips_concat]; simpa using hnot
    | false =>
      simp only [record, Bool.false_eq_true, if_false, recordFailure, hst, hcount, hthr]
      split
      · -- the streak reaches the threshold
        rename_i hge
        refine ⟨rfl, hcool, Or.inr ⟨rfl, rfl, rfl, ?_⟩⟩
        exact (trips_concat cb outcomes false).mpr (Or.inr ⟨rfl, hge⟩)
      · rename_i hlt
        refine ⟨rfl, hcool, Or.inl ⟨rfl, ?_, hopened, hflag, ?_⟩⟩
        · rw [List.streak_concat_self]; rfl
        · rw [trips_concat]
          rintro (htrip | ⟨-, hle⟩)
          · exact hnot htrip
          · exact hlt hle
  · -- an open breaker ignores outcomes
    have hsame : b.record now ok flag = (b, flag) := by
      cases ok <;> simp [record, recordSuccess, recordFailure, hst]
    rw [hsame]
    have htrip' := (trips_concat cb outcomes ok).mpr (Or.inl htrip)
    exact ⟨hthr, hcool, Or.inr ⟨hst, hopened, hflag, htrip'⟩⟩

end HootLb.Circuitbreaker

namespace HootLb.Runtime

open Balancer Circuitbreaker Config

/-! ## Breakers and flags of a pool -/

/-- The part of a server a breaker is concerned with. -/
def circuit (s : Server) : String × Bool := (s.address, s.circuitOpen)

/-- The address and circuit flag of every server. -/
def PoolState.circuits (ps : PoolState) : List (String × Bool) := ps.servers.map circuit

/-- `BackendOutcome`'s lookup of the breaker of an address. -/
def PoolState.cell (ps : PoolState) (addr : String) : Option BreakerCell :=
  ps.breakers.bind fun m => m.lookup addr

/-- Every server's address has a breaker; the last server with the address holds
    the flag of that breaker, which is in step with the outcomes recorded for the
    address; the flag of any earlier server with the address was never set. -/
structure CircuitInv (cb : CircuitBreakerConfig) (outcomes : String → List Bool)
    (circuits : List (String × Bool)) (cell : String → Option BreakerCell) : Prop where
  covered : ∀ i a f, circuits[i]? = some (a, f) → ∃ c, cell a = some c ∧ i ≤ c.server
  tracks : ∀ a c, cell a = some c →
    ∃ f, circuits[c.server]? = some (a, f) ∧ c.breaker.Tracks cb f (outcomes a)
  shadowed : ∀ i a f c, circuits[i]? = some (a, f) → cell a = some c → i ≠ c.server → f = false

/-- `newBreakers` on a list with one more server. -/
theorem newBreakers_concat (cb : CircuitBreakerConfig) (servers : List Server)
    (s : Server) :
    newBreakers cb (servers ++ [s]) = (newBreakers cb servers).insert s.address
      { breaker := newBreaker cb.failureThreshold cb.openDuration cb.halfOpenMaxProbes
        server := servers.length } := by
  simp [newBreakers, List.zipIdx_append, List.foldl_append]

/-- Right after construction every breaker is in step with the empty history. -/
theorem circuitInv_newBreakers (cb : CircuitBreakerConfig) (servers : List Server)
    (h : ∀ s ∈ servers, s.circuitOpen = false) :
    CircuitInv cb (fun _ => []) (servers.map circuit)
      (fun a => (newBreakers cb servers).lookup a) := by
  induction servers using List.reverseRecOn with
  | nil =>
    refine ⟨?_, ?_, ?_⟩
    · intro i a f hi; simp at hi
    · intro a c hc; exact nomatch hc
    · intro i a f c hi; simp at hi
  | append_singleton servers s ih =>
    have hflags : ∀ (i : Nat) (a : String) (f : Bool),
        ((servers ++ [s]).map circuit)[i]? = some (a, f) → f = false := by
      intro i a f hi
      obtain ⟨x, hx, hxe⟩ := List.mem_map.mp (List.mem_of_getElem? hi)
      have := h x hx
      simp only [circuit, Prod.mk.injEq] at hxe
      rw [← hxe.2, this]
    obtain ⟨hcov, htrk, -⟩ := ih fun x hx => h x (List.mem_append_left _ hx)
    simp only [newBreakers_concat]
    refine ⟨?_, ?_, fun i a f c hi _ _ => hflags i a f hi⟩
    · intro i a f hi
      have hlt : i < servers.length + 1 := by
        simpa using (List.getElem?_eq_some_iff.mp hi).1
      by_cases ha : a = s.address
      · subst ha
        exact ⟨_, AList.lookup_insert _, by simpa using Nat.lt_succ_iff.mp hlt⟩
      · rw [AList.lookup_insert_ne ha]
        refine hcov i a f ?_
        -- the last entry has the address of `s`, so `i` is an old index
        by_cases hi' : i = servers.length
        · subst hi'
          simp [circuit] at hi
          exact absurd hi.1.symm ha
        · rw [List.map_append, List.getElem?_append_left (by simp; omega)] at hi
          exact hi
    · intro a c hc
      by_cases ha : a = s.address
      · subst ha
        rw [AList.lookup_insert] at hc
        cases hc
        have hs : circuit s = (s.address, false) := by simp [circuit, h s (by simp)]
        exact ⟨false, by simp [hs], Breaker.tracks_newBreaker cb⟩
      · rw [AList.lookup_insert_ne ha] at hc
        obtain ⟨f, hf, hf'⟩ := htrk a c hc
        have hlt := (List.getElem?_eq_some_iff.mp hf).1
        exact ⟨f, by rw [List.map_append, List.getElem?_append_left hlt]; exact hf, hf'⟩

/-! ## Events -/

/-- An event that reports no outcome changes neither breakers nor circuit flags. -/
private theorem apply_circuits (now : Time) (ps : PoolState) (e : PoolEvent)
    (he : ∀ addr ok, e ≠ .outcome addr ok) :
    (ps.apply now e).circuits = ps.circuits ∧ (ps.apply now e).breakers = ps.breakers := by
  refine ⟨?_, ps.apply_breakers now e he⟩
  obtain ⟨i, c, hs, hcause⟩ := ps.apply_servers now e
  unfold PoolState.circuits
  rw [hs]
  apply List.map_modify_eq_map
  intro s
  cases c with
  | keep | healthy b | draining b => rfl
  | circuitOpen b =>
    obtain ⟨addr, ok, rfl⟩ := hcause
    exact absurd rfl (he addr ok)

/-- The outcomes after one more was reported for `addr`. -/
def reportOutcome (outcomes : String → List Bool) (addr : String) (ok : Bool) :
    String → List Bool :=
  fun a => if a = addr then outcomes a ++ [ok] else outcomes a

/-- Without a breaker for the address nothing happens. -/
private theorem withBreaker_of_none (ps : PoolState) (addr : String)
    (f : Breaker → Bool → Breaker × Bool) (h : ps.cell addr = none) :
    ps.withBreaker addr f = ps := by
  unfold PoolState.cell at h
  unfold PoolState.withBreaker
  cases hm : ps.breakers with
  | none => rfl
  | some m =>
    rw [hm, Option.bind_some] at h
    simp only [h]

/-- With a breaker for the address, that breaker and the flag of its server
    change and nothing else does. -/
private theorem withBreaker_of_some (ps : PoolState) (addr : String)
    (f : Breaker → Bool → Breaker × Bool) (c : BreakerCell) (h : ps.cell addr = some c) :
    (ps.withBreaker addr f).circuits = ps.circuits.modify c.server
      (fun p => (p.1, (f c.breaker (ps.deref c.server).circuitOpen).2)) ∧
    (ps.withBreaker addr f).cell = fun a =>
      if a = addr then
        some { c with breaker := (f c.breaker (ps.deref c.server).circuitOpen).1 }
      else ps.cell a := by
  unfold PoolState.cell at h
  cases hm : ps.breakers with
  | none => rw [hm] at h; exact nomatch h
  | some m =>
    rw [hm, Option.bind_some] at h
    simp only [PoolState.withBreaker, hm, h]
    refine ⟨List.map_modify circuit _ _ _ _ fun _ => rfl, ?_⟩
    funext a
    simp only [PoolState.cell, hm, Option.bind_some]
    by_cases ha : a = addr
    · subst ha; rw [AList.lookup_insert, if_pos rfl]
    · rw [AList.lookup_insert_ne ha, if_neg ha]

/-- The flag behind a handle, read off the circuits. -/
private theorem deref_circuitOpen (ps : PoolState) (i : Nat) (a : String) (f : Bool)
    (h : ps.circuits[i]? = some (a, f)) : (ps.deref i).circuitOpen = f := by
  simp only [PoolState.circuits, List.getElem?_map, Option.map_eq_some_iff, circuit,
    Prod.mk.injEq] at h
  obtain ⟨s, hs, -, hf⟩ := h
  rw [PoolState.deref, derefIn, List.getD_eq_getElem?_getD, hs]
  exact hf

/-- Setting one flag keeps every address and every other flag. -/
private theorem getElem?_setFlag (circuits : List (String × Bool)) (k i : Nat) (flag f : Bool)
    (a : String) (h : (circuits.modify k fun p => (p.1, flag))[i]? = some (a, f)) :
    ∃ f₀, circuits[i]? = some (a, f₀) ∧ (i ≠ k → f = f₀) := by
  rw [List.getElem?_modify] at h
  cases hi : circuits[i]? with
  | none => rw [hi] at h; exact nomatch h
  | some p =>
    rw [hi] at h
    by_cases hk : k = i
    · simp only [hk, if_true, Option.map_eq_map, Option.map_some, Option.some.injEq,
        Prod.mk.injEq] at h
      exact ⟨p.2, by rw [← h.1], fun hne => absurd hk.symm hne⟩
    · simp only [hk, if_false, Option.map_eq_map, Option.map_some, Option.some.injEq] at h
      exact ⟨f, by rw [h], fun _ => rfl⟩

/-- Reporting an outcome keeps every breaker in step. -/
private theorem CircuitInv.outcome (cb : CircuitBreakerConfig) (outcomes : String → List Bool)
    (now : Time) (ps : PoolState) (addr : String) (ok : Bool)
    (h : CircuitInv cb outcomes ps.circuits ps.cell) :
    CircuitInv cb (reportOutcome outcomes addr ok) (ps.apply now (.outcome addr ok)).circuits
      (ps.apply now (.outcome addr ok)).cell := by
  have happly : ps.apply now (.outcome addr ok) = ps.withBreaker addr (Breaker.record now ok) := by
    cases ok <;> rfl
  rw [happly]
  cases hc : ps.cell addr with
  | none =>
    -- no server has the address: nothing changes, and no breaker tracks its outcomes
    rw [withBreaker_of_none ps addr _ hc]
    refine ⟨h.covered, ?_, h.shadowed⟩
    intro a c ha
    have hne : a ≠ addr := by rintro rfl; rw [hc] at ha; exact nomatch ha
    simp only [reportOutcome, if_neg hne]
    exact h.tracks a c ha
  | some c =>
    obtain ⟨f, hf, htrk⟩ := h.tracks addr c hc
    obtain ⟨hcircuits, hcell⟩ := withBreaker_of_some ps addr (Breaker.record now ok) c hc
    rw [deref_circuitOpen ps c.server addr f hf] at hcircuits hcell
    rw [hcircuits, hcell]
    refine ⟨?_, ?_, ?_⟩
    · -- covered: addresses stay, and so do the servers behind the breakers
      intro i a f' hi
      obtain ⟨f₀, hi₀, -⟩ := getElem?_setFlag _ _ _ _ _ _ hi
      obtain ⟨c', hc', hle⟩ := h.covered i a f₀ hi₀
      by_cases ha : a = addr
      · subst ha
        rw [hc] at hc'
        cases hc'
        exact ⟨_, if_pos rfl, hle⟩
      · exact ⟨c', by rw [if_neg ha]; exact hc', hle⟩
    · -- tracks: the breaker of `addr` records the outcome, the others do not move
      intro a c' ha'
      by_cases ha : a = addr
      · subst ha
        rw [if_pos rfl] at ha'
        cases ha'
        refine ⟨(c.breaker.record now ok f).2, by simp [hf], ?_⟩
        simp only [reportOutcome, if_true]
        exact Breaker.tracks_record cb now ok c.breaker f _ htrk
      · rw [if_neg ha] at ha'
        obtain ⟨f', hf', htrk'⟩ := h.tracks a c' ha'
        -- two addresses never share the server that holds their flag
        have hne : c.server ≠ c'.server := by
          intro heq
          rw [← heq, hf] at hf'
          cases hf'
          exact ha rfl
        refine ⟨f', by rw [List.getElem?_modify_ne _ _ hne]; exact hf', ?_⟩
        simp only [reportOutcome, if_neg ha]
        exact htrk'
    · -- shadowed: the changed flag is the one its own breaker writes
      intro i a f' c' hi ha' hne
      obtain ⟨f₀, hi₀, hsame⟩ := getElem?_setFlag _ _ _ _ _ _ hi
      by_cases ha : a = addr
      · subst ha
        rw [if_pos rfl] at ha'
        cases ha'
        rw [hsame hne]
        exact h.shadowed i a f₀ c hi₀ hc hne
      · rw [if_neg ha] at ha'
        have hi_ne : i ≠ c.server := by
          rintro rfl
          rw [hf] at hi₀
          cases hi₀
          exact ha rfl
        rw [hsame hi_ne]
        exact h.shadowed i a f₀ c' hi₀ ha' hne

/-! ## Runs -/

/-- A pool and the clock its breakers read. -/
structure ClockedPool where
  now : Time
  pool : PoolState

/-- One step of a running pool: an event on the pool, or time passing. -/
inductive ClockedStep where
  | event (e : PoolEvent)
  | advance (d : Nat)

def ClockedPool.step (σ : ClockedPool) : ClockedStep → ClockedPool
  | .event e => { σ with pool := σ.pool.apply σ.now e }
  | .advance d => { σ with now := σ.now + d }

def ClockedPool.exec (σ : ClockedPool) (run : List ClockedStep) : ClockedPool :=
  run.foldl ClockedPool.step σ

/-- The outcomes a run reports for an address, in order. -/
def outcomesOf (run : List ClockedStep) (addr : String) : List Bool :=
  run.filterMap fun
    | .event (.outcome a ok) => if a = addr then some ok else none
    | _ => none

/-- A pool just built with breakers, at some time. -/
def ClockedPool.start (p : PoolConfig) (cb : CircuitBreakerConfig) (backends : List Backend)
    (now : Time) : ClockedPool :=
  { now, pool := buildPoolState { p with circuitBreaker := some cb } backends }

/-- One step of a running pool keeps all breakers in step with the run so far. -/
theorem CircuitInv.step (cb : CircuitBreakerConfig) (σ : ClockedPool)
    (past : List ClockedStep) (x : ClockedStep)
    (h : CircuitInv cb (outcomesOf past) σ.pool.circuits σ.pool.cell) :
    CircuitInv cb (outcomesOf (past ++ [x])) (σ.step x).pool.circuits (σ.step x).pool.cell := by
  -- a step that reports nothing leaves the history and the circuits as they were
  have silent : (∀ a, outcomesOf (past ++ [x]) a = outcomesOf past a) →
      (σ.step x).pool.circuits = σ.pool.circuits ∧
        (σ.step x).pool.breakers = σ.pool.breakers →
      CircuitInv cb (outcomesOf (past ++ [x])) (σ.step x).pool.circuits
        (σ.step x).pool.cell := by
    intro hhist hsame
    have hcell : (σ.step x).pool.cell = σ.pool.cell := by
      funext a; simp only [PoolState.cell, hsame.2]
    rw [funext hhist, hsame.1, hcell]
    exact h
  cases x with
  | advance d => exact silent (fun a => by simp [outcomesOf]) ⟨rfl, rfl⟩
  | event e =>
    cases e with
    | outcome addr ok =>
      have hhist : outcomesOf (past ++ [.event (.outcome addr ok)]) =
          reportOutcome (outcomesOf past) addr ok := by
        funext a
        by_cases ha : a = addr
        · subst ha; simp [outcomesOf, reportOutcome]
        · simp [outcomesOf, reportOutcome, ha, Ne.symm ha]
      rw [hhist]
      exact CircuitInv.outcome cb _ σ.now σ.pool addr ok h
    | pick | acquire | release | reportFailure | probe | setDraining =>
      exact silent (fun a => by simp [outcomesOf])
        (apply_circuits σ.now σ.pool _ (fun _ _ he => nomatch he))

/-- In every state a pool reaches, all breakers are in step with the run. -/
theorem circuitInv_exec (p : PoolConfig) (cb : CircuitBreakerConfig) (backends : List Backend)
    (now : Time) (run : List ClockedStep) :
    CircuitInv cb (outcomesOf run) ((ClockedPool.start p cb backends now).exec run).pool.circuits
      ((ClockedPool.start p cb backends now).exec run).pool.cell := by
  have hstart : CircuitInv cb (outcomesOf []) (ClockedPool.start p cb backends now).pool.circuits
      (ClockedPool.start p cb backends now).pool.cell :=
    circuitInv_newBreakers cb (newServers backends) (by simp [newServers, newServer])
  exact List.foldl_history ClockedPool.step
    (fun σ past => CircuitInv cb (outcomesOf past) σ.pool.circuits σ.pool.cell)
    (fun σ past x h => CircuitInv.step cb σ past x h) _ [] run hstart

/-! ## Recovery -/

/-- Backend `i` can be selected at this point as far as its circuit goes: its flag
    is clear, or whichever selection comes next clears it. -/
def PoolState.Selectable (ps : PoolState) (i : Nat) : Prop :=
  ∀ draw key, (ps.deref i).circuitOpen = false ∨
    ((ps.pick draw key).2.deref i).circuitOpen = false

/-- Every healthy, undrained backend whose breaker opened is selectable again at
    every time from the end of its cool-down on. -/
def ClockedPool.Recovers (σ : ClockedPool) : Prop :=
  ∀ i s c t₀, σ.pool.servers[i]? = some s → σ.pool.cell s.address = some c →
    s.healthy → ¬ s.draining → c.breaker.openedAt = some t₀ →
    ∀ d : Nat, (σ.step (.advance d)).now ≥ t₀ + c.breaker.openDuration →
      (σ.step (.advance d)).pool.Selectable i

/-- No server after position `i` has the same address, so that the breaker of the
    address holds this server's flag. -/
def PoolState.LastWithAddress (ps : PoolState) (i : Nat) (addr : String) : Prop :=
  ∀ j s, ps.servers[j]? = some s → s.address = addr → j ≤ i

/-- Selection does not touch the flags. -/
private theorem selectable_iff (ps : PoolState) (i : Nat) :
    ps.Selectable i ↔ (ps.deref i).circuitOpen = false :=
  ⟨fun h => (h 0 "").elim id id, fun h _ _ => Or.inl h⟩

theorem PoolState.circuits_getElem? (ps : PoolState) (i : Nat) (s : Server)
    (h : ps.servers[i]? = some s) : ps.circuits[i]? = some (s.address, s.circuitOpen) := by
  simp [PoolState.circuits, circuit, h]

/-- The breaker of an address holds the flag of the last server with the address. -/
theorem CircuitInv.server_eq_iff (cb : CircuitBreakerConfig)
    (outcomes : String → List Bool) (ps : PoolState) (i : Nat) (s : Server) (c : BreakerCell)
    (hinv : CircuitInv cb outcomes ps.circuits ps.cell) (hs : ps.servers[i]? = some s)
    (hc : ps.cell s.address = some c) :
    c.server = i ↔ ps.LastWithAddress i s.address := by
  -- the position of any server with the address is at most that of the breaker's server
  have hle : ∀ j s', ps.servers[j]? = some s' → s'.address = s.address → j ≤ c.server := by
    intro j s' hs' ha
    obtain ⟨c', hc', hle⟩ := hinv.covered j _ _ (PoolState.circuits_getElem? ps j s' hs')
    rw [ha, hc] at hc'
    cases hc'
    exact hle
  constructor
  · rintro rfl
    exact hle
  · intro hlast
    obtain ⟨f, hf, -⟩ := hinv.tracks _ c hc
    simp only [PoolState.circuits, List.getElem?_map, Option.map_eq_some_iff, circuit,
      Prod.mk.injEq] at hf
    obtain ⟨s', hs', ha, -⟩ := hf
    exact Nat.le_antisymm (hlast _ s' hs' ha) (hle i s hs rfl)

/-- A pool with breakers, after any run, honours the cool-down of every healthy
    and undrained backend exactly when none of them has been tripped: no backend
    whose circuit opened ever comes back. -/
theorem recovers_iff_no_failure_streak (p : PoolConfig) (cb : CircuitBreakerConfig)
    (backends : List Backend) (now : Time) (run : List ClockedStep) :
    ((ClockedPool.start p cb backends now).exec run).Recovers ↔
      ∀ i s, ((ClockedPool.start p cb backends now).exec run).pool.servers[i]? = some s →
        s.healthy → ¬ s.draining →
        ((ClockedPool.start p cb backends now).exec run).pool.LastWithAddress i s.address →
        ¬ Trips cb (outcomesOf run s.address) := by
  have hinv := circuitInv_exec p cb backends now run
  generalize (ClockedPool.start p cb backends now).exec run = σ at hinv ⊢
  constructor
  · intro hrec i s hs hhealthy hdrain hlast htrip
    obtain ⟨c, hc, -⟩ := hinv.covered i _ _ (PoolState.circuits_getElem? σ.pool i s hs)
    obtain ⟨f, hf, htrk⟩ := hinv.tracks _ c hc
    obtain rfl := (hinv.server_eq_iff cb _ σ.pool i s c hs hc).mpr hlast
    rcases htrk.status with ⟨-, -, -, -, hnot⟩ | ⟨-, hopened, hflag, -⟩
    · exact hnot htrip
    · obtain ⟨t₀, ht₀⟩ := Option.isSome_iff_exists.mp hopened
      -- wait until the cool-down is over
      have hsel := hrec _ s c t₀ hs hc hhealthy hdrain ht₀
        (t₀ + c.breaker.openDuration - σ.now).toNat
        (Int.le_add_of_sub_left_le (Int.self_le_toNat _))
      rw [selectable_iff] at hsel
      have hopen := deref_circuitOpen σ.pool _ _ f hf
      rw [hflag] at hopen
      exact nomatch hopen.symm.trans hsel
  · intro hcond i s c t₀ hs hc hhealthy hdrain hopened d _
    have hflag := deref_circuitOpen σ.pool i _ _ (PoolState.circuits_getElem? σ.pool i s hs)
    refine (selectable_iff _ i).mpr (hflag.trans ?_)
    by_cases hi : i = c.server
    · subst hi
      obtain ⟨f, hf, htrk⟩ := hinv.tracks _ c hc
      have hlast := (hinv.server_eq_iff cb _ σ.pool _ s c hs hc).mp rfl
      rcases htrk.status with ⟨-, -, hnone, -, -⟩ | ⟨-, -, -, htrip⟩
      · rw [hopened] at hnone; exact nomatch hnone
      · exact absurd htrip (hcond _ s hs hhealthy hdrain hlast)
    · exact hinv.shadowed i _ _ c (PoolState.circuits_getElem? σ.pool i s hs) hc hi

/-- A round-robin pool whose breakers open after one failure, for 30 seconds. -/
def fragilePool : PoolConfig :=
  { name := "web", algorithm := "round_robin", backends := [], discovery := none
    healthCheck := none, sticky := none, circuitBreaker := none, retry := none }

/-- One request fails; a day later its backend is still excluded. -/
theorem not_recovers_after_failure :
    ¬ ((ClockedPool.start fragilePool
        { failureThreshold := 1, openDuration := 30000000000, halfOpenMaxProbes := 1 }
        [⟨"10.0.0.1:8080", 1⟩] 0).exec
      [.event (.pick 0 ""), .event (.outcome "10.0.0.1:8080" false),
        .advance 86400000000000]).Recovers := by
  intro h
  have hsel := h 0
    { address := "10.0.0.1:8080", weight := 1, healthy := true, draining := false
      circuitOpen := true }
    { breaker :=
        { state := .open, consecutiveFail := 0, failureThreshold := 1
          openDuration := 30000000000, halfOpenMaxProbes := 1, openedAt := some 0
          halfOpenProbes := 0 }
      server := 0 }
    0 (by decide) (by decide) rfl (by decide) rfl 0 (by decide)
  rw [selectable_iff] at hsel
  exact absurd hsel (by decide)

end HootLb.Runtime
