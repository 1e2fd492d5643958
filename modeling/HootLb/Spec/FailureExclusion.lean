import Mathlib.Data.List.NodupEquivFin
import HootLb.Spec.BalancerSound
import HootLb.Spec.Hysteresis

/-!
# Exclusion of failed backends

Failures are reported by address, and `Pick` filters servers. A passive report
reaches the first server with the address, a breaker writes the flag of the last.
Where an address belongs to one server, a failed backend is not picked before it
has been readmitted; this module follows the reports and the probes of an address
through any run of its pool.

## Key results

- `OwesInv.step`: a backend reported as failed stays out while it owes successes
- `failed_backends_not_picked`: no run picks an address that is still excluded
-/

namespace HootLb.Runtime

open Balancer Circuitbreaker Config

/-! ## Addresses -/

/-- The address of backend `i`. -/
def PoolState.addressOf (ps : PoolState) (i : Nat) : Option String :=
  ps.servers[i]?.map (·.address)

/-- At most one server has the address. -/
def PoolState.Sole (ps : PoolState) (addr : String) : Prop :=
  (ps.servers.map (·.address)).count addr ≤ 1

instance (ps : PoolState) (addr : String) : Decidable (ps.Sole addr) :=
  inferInstanceAs (Decidable (_ ≤ _))

section Addresses

variable {ps : PoolState} {addr : String} {i j : Nat}

theorem PoolState.Sole.eq (h : ps.Sole addr) (hi : ps.addressOf i = some addr)
    (hj : ps.addressOf j = some addr) : i = j := by
  have hsame : ∀ i j, i < j → ps.addressOf i = some addr → ps.addressOf j ≠ some addr := by
    intro i j hij hi hj
    rw [addressOf, ← List.getElem?_map, List.getElem?_eq_some_iff] at hi hj
    obtain ⟨hilt, hi⟩ := hi
    obtain ⟨hjlt, hj⟩ := hj
    have hdup : (ps.servers.map (·.address)).Duplicate addr :=
      List.duplicate_iff_exists_distinct_get.mpr ⟨⟨i, hilt⟩, ⟨j, hjlt⟩, hij, hi.symm, hj.symm⟩
    have htwo := List.duplicate_iff_two_le_count.mp hdup
    unfold Sole at h
    omega
  rcases Nat.lt_trichotomy i j with hlt | rfl | hlt
  · exact absurd hj (hsame i j hlt hi)
  · rfl
  · exact absurd hi (hsame j i hlt hj)

/-- The only server with an address is the one a lookup finds. -/
theorem PoolState.Sole.findIdx? (h : ps.Sole addr) (hi : ps.addressOf i = some addr) :
    ps.servers.findIdx? (fun s => s.address = addr) = some i := by
  obtain ⟨s, hs, ha⟩ := Option.map_eq_some_iff.mp hi
  cases hk : ps.servers.findIdx? fun s => s.address = addr with
  | none =>
    have hnot := List.findIdx?_eq_none_iff.mp hk s (List.mem_of_getElem? hs)
    simp [ha] at hnot
  | some k =>
    obtain ⟨hlt, hk, -⟩ := List.findIdx?_eq_some_iff_getElem.mp hk
    have hka : ps.addressOf k = some addr := by
      simpa [addressOf, hlt] using hk
    rw [h.eq hka hi]

/-- Steps of a running pool keep its addresses. -/
theorem ClockedPool.step_addresses (σ : ClockedPool) (x : ClockedStep) :
    (σ.step x).pool.servers.map (·.address) = σ.pool.servers.map (·.address) := by
  cases x with
  | advance d => rfl
  | event e => exact σ.pool.apply_addresses σ.now e

@[simp] theorem ClockedPool.step_addressOf (σ : ClockedPool) (x : ClockedStep) :
    (σ.step x).pool.addressOf i = σ.pool.addressOf i := by
  rw [PoolState.addressOf, ← List.getElem?_map, σ.step_addresses x, List.getElem?_map]
  rfl

@[simp] theorem ClockedPool.step_sole (σ : ClockedPool) (x : ClockedStep) :
    (σ.step x).pool.Sole addr ↔ σ.pool.Sole addr := by
  rw [PoolState.Sole, σ.step_addresses x]
  rfl

end Addresses

/-! ## Successes since a report -/

/-- Successful probes counted for an address, from a report of the address on. -/
def tally (addr : String) (n : Option Nat) (t : PoolStep) : Option Nat :=
  match t.action with
  | .event (.reportFailure a) => if a = addr then some 0 else n
  | .event (.probe k true) => if t.before.pool.addressOf k = some addr then n.map (· + 1) else n
  | _ => n

/-- How many probes of an address have succeeded since the last passive report of
    the address; `none` if it was never reported. -/
def successesSinceReport (addr : String) (past : List PoolStep) : Option Nat :=
  past.foldl (tally addr) none

/-- A passive report or a failed request that the pool can attribute: no other
    server has the address, and the backend reported as failed is healthy or has no
    successful probes counted towards its return. -/
def ClockedPool.Attributes (σ : ClockedPool) : ClockedStep → Prop
  | .event (.reportFailure addr) =>
    σ.pool.fr.isSome → σ.pool.Sole addr ∧
      ∀ h ∈ (σ.pool.servers.findIdx? fun s => s.address = addr).bind σ.pool.health,
        h.healthy = true ∨ h.consecutiveSuccess = 0
  | .event (.outcome addr false) => σ.pool.breakers.isSome → σ.pool.Sole addr
  | _ => True

/-- The tally in terms of the signal a backend receives. -/
def tallySignal (n : Option Nat) : Option Signal → Option Nat
  | some .report => some 0
  | some (.probe true) => n.map (· + 1)
  | _ => n

/-- The only server with an address receives what the tally of the address counts. -/
theorem tally_eq_signal {addr : String} {i : Nat} (n : Option Nat) (t : PoolStep)
    (hsole : t.before.pool.Sole addr) (hi : t.before.pool.addressOf i = some addr) :
    tally addr n t = tallySignal n (t.before.signal i t.action) := by
  have hfind := hsole.findIdx? hi
  unfold tally
  cases hx : t.action with
  | advance d => rfl
  | event e =>
    cases e with
    | pick | acquire | release | outcome | setDraining => rfl
    | reportFailure a =>
      simp only [ClockedPool.signal, PoolState.signal]
      by_cases ha : a = addr
      · subst ha
        rw [if_pos rfl, if_pos hfind]
        rfl
      · -- the report is for the first server with another address
        have hne : t.before.pool.servers.findIdx? (fun s => s.address = a) ≠ some i := by
          intro hk
          obtain ⟨hlt, hk, -⟩ := List.findIdx?_eq_some_iff_getElem.mp hk
          have hia : t.before.pool.addressOf i = some a := by
            simpa [PoolState.addressOf, hlt] using hk
          exact ha (Option.some.inj (hia.symm.trans hi))
        rw [if_neg ha, if_neg hne]
        rfl
    | probe k ok =>
      simp only [ClockedPool.signal, PoolState.signal]
      by_cases hk : k = i
      · subst hk
        cases ok <;> simp [tallySignal, hi]
      · have hne : t.before.pool.addressOf k ≠ some addr := fun hka => hk (hsole.eq hka hi)
        cases ok <;> simp [tallySignal, hk, hne]

/-- A checker that watches a pool has counters for each of its backends. -/
theorem PoolState.Watches.health_isSome {ps : PoolState} {hc : HealthCheckConfig} {i : Nat}
    {addr : String} (h : ps.Watches hc) (hi : ps.addressOf i = some addr) :
    ∃ x, ps.health i = some x := by
  obtain ⟨c, hfr, -, hservers⟩ := h.checker
  obtain ⟨s, hs, -⟩ := Option.map_eq_some_iff.mp hi
  have hlt : i < ps.servers.length := (List.getElem?_eq_some_iff.mp hs).1
  have hlen : c.backends.length = ps.servers.length := by
    simpa using congrArg List.length hservers
  have hbh : c.backends[i]? = some c.backends[i] := List.getElem?_eq_getElem (by omega)
  exact ⟨_, by rw [PoolState.health, hfr, Option.bind_some, hbh]; rfl⟩

/-! ## Passive reports -/

/-- A backend that owes successes is unhealthy, and its counter has not got ahead of
    the successes seen since the report. -/
structure OwesInv (hc : HealthCheckConfig) (σ : ClockedPool) (past : List PoolStep) : Prop where
  watches : σ.pool.Watches hc
  sole : ∀ addr n, successesSinceReport addr past = some n → σ.pool.Sole addr
  owes : ∀ addr n i, successesSinceReport addr past = some n → (n : Int) < hc.healthyThreshold →
    σ.pool.addressOf i = some addr →
      ∃ h, σ.pool.health i = some h ∧ h.healthy = false ∧ h.consecutiveSuccess ≤ n

section Owes

variable {hc : HealthCheckConfig} {σ : ClockedPool} {past : List PoolStep}

theorem successesSinceReport_concat (addr : String) (past : List PoolStep) (t : PoolStep) :
    successesSinceReport addr (past ++ [t]) = tally addr (successesSinceReport addr past) t := by
  simp [successesSinceReport, List.foldl_append]

/-- An address with a tally is the address of one server. -/
private theorem OwesInv.sole_step (h : OwesInv hc σ past) (x : ClockedStep)
    (hx : σ.Attributes x) (addr : String) (n : Nat)
    (hn : tally addr (successesSinceReport addr past) ⟨σ, x, σ.step x⟩ = some n) :
    σ.pool.Sole addr := by
  cases hold : successesSinceReport addr past with
  | some k => exact h.sole addr k hold
  | none =>
    -- only a report starts a tally
    rw [hold] at hn
    obtain ⟨c, hfr, -⟩ := h.watches.checker
    unfold tally at hn
    dsimp only at hn
    split at hn
    · split at hn
      · rename_i ha
        subst ha
        exact (hx (by simp [hfr])).1
      · cases hn
    · split at hn <;> cases hn
    · cases hn

/-- One signal on a backend that owes successes. -/
private theorem owes_receive (x : Health) (sig : Option Signal) (n : Option Nat) (m : Nat)
    (hold : ∀ k, n = some k → (k : Int) < hc.healthyThreshold →
      x.healthy = false ∧ x.consecutiveSuccess ≤ k)
    (hreport : sig = some .report → x.healthy = true ∨ x.consecutiveSuccess = 0)
    (hm : tallySignal n sig = some m) (hlt : (m : Int) < hc.healthyThreshold) :
    (x.receive hc sig).healthy = false ∧ (x.receive hc sig).consecutiveSuccess ≤ m := by
  cases sig with
  | none => exact hold m hm hlt
  | some sig =>
    cases sig with
    | report =>
      obtain rfl : 0 = m := Option.some.inj hm
      simp only [Health.receive, Health.signal]
      split
      · exact ⟨rfl, Int.le_refl 0⟩
      · rename_i hun
        have hzero := (hreport rfl).resolve_left hun
        exact ⟨by simpa using hun, by omega⟩
    | probe ok =>
      cases ok with
      | true =>
        obtain ⟨k, hk, rfl⟩ := Option.map_eq_some_iff.mp hm
        obtain ⟨hun, hle⟩ := hold k hk (by omega)
        -- the count is still short of the threshold
        have hnot : ¬ ((!x.healthy) = true ∧ x.consecutiveSuccess + 1 ≥ hc.healthyThreshold) :=
          fun hcond => by omega
        simp only [Health.receive, Health.signal, if_neg hnot]
        exact ⟨hun, by omega⟩
      | false =>
        obtain ⟨hun, hle⟩ := hold m hm hlt
        simp only [Health.receive, Health.signal, hun, Bool.false_eq_true, false_and, if_false]
        exact ⟨trivial, by omega⟩

/-- One step keeps backends that owe successes out. -/
theorem OwesInv.step (h : OwesInv hc σ past) (htype : hc.type = "tcp" ∨ hc.type = "http")
    (x : ClockedStep) (hx : σ.Attributes x) :
    OwesInv hc (σ.step x) (past ++ [⟨σ, x, σ.step x⟩]) := by
  refine ⟨?_, ?_, ?_⟩
  · cases x with
    | advance d => exact h.watches
    | event e => exact h.watches.apply σ.now e
  · intro addr n hn
    rw [successesSinceReport_concat] at hn
    exact (σ.step_sole x).mpr (h.sole_step x hx addr n hn)
  · intro addr m i hm hlt hi
    rw [successesSinceReport_concat] at hm
    rw [σ.step_addressOf x] at hi
    have hsole := h.sole_step x hx addr m hm
    rw [tally_eq_signal _ ⟨σ, x, σ.step x⟩ hsole hi] at hm
    obtain ⟨y, hy⟩ := h.watches.health_isSome hi
    refine ⟨_, (ClockedPool.step_health h.watches htype hy x).2, ?_⟩
    -- a report that finds the server unhealthy comes with the count at 0
    have hreport : σ.signal i x = some .report → y.healthy = true ∨ y.consecutiveSuccess = 0 := by
      intro hsig
      obtain ⟨a, rfl, hfind⟩ := (ClockedPool.signal_report_iff σ i x).mp hsig
      obtain ⟨c, hfr, -⟩ := h.watches.checker
      exact (hx (by simp [hfr])).2 y (by rw [hfind]; exact hy)
    refine owes_receive y (σ.signal i x) _ m (fun n hn hlt => ?_) hreport hm hlt
    obtain ⟨y', hy', howes⟩ := h.owes addr n i hn hlt hi
    rw [hy] at hy'
    obtain rfl := Option.some.inj hy'
    exact howes

/-- No address has been reported at the start. -/
theorem PoolState.BuiltFrom.owesInv {ps : PoolState} {p : PoolConfig} {backends : List Backend}
    (hps : ps.BuiltFrom p backends) (hcheck : p.healthCheck = some hc)
    (htype : hc.type = "tcp" ∨ hc.type = "http") (now : Time) : OwesInv hc ⟨now, ps⟩ [] where
  watches := hps.watches hcheck htype
  sole := fun _ _ hn => nomatch hn
  owes := fun _ _ _ hn => nomatch hn

end Owes

/-! ## Breakers -/

/-- All breakers are in step with the outcomes reported so far, and every address
    with a failed request is the address of one server. -/
structure TripInv (cb : CircuitBreakerConfig) (σ : ClockedPool) (past : List PoolStep) : Prop where
  circuits : CircuitInv cb (outcomesOf (past.map (·.action))) σ.pool.circuits σ.pool.cell
  sole : ∀ addr, false ∈ outcomesOf (past.map (·.action)) addr → σ.pool.Sole addr

section Trip

variable {cb : CircuitBreakerConfig} {σ : ClockedPool} {past : List PoolStep}

/-- A failed request for an address of the pool meets a breaker. -/
private theorem TripInv.sole_outcome (h : TripInv cb σ past) (addr : String)
    (hx : σ.Attributes (.event (.outcome addr false))) : σ.pool.Sole addr := by
  by_cases hmem : addr ∈ σ.pool.servers.map (·.address)
  · obtain ⟨s, hs, rfl⟩ := List.mem_map.mp hmem
    obtain ⟨i, hi⟩ := List.getElem?_of_mem hs
    obtain ⟨c, hc, -⟩ := h.circuits.covered i _ _ (PoolState.circuits_getElem? σ.pool i s hi)
    obtain ⟨m, hm, -⟩ := Option.bind_eq_some_iff.mp hc
    exact hx (by simp [hm])
  · unfold PoolState.Sole
    rw [List.count_eq_zero_of_not_mem hmem]
    omega

theorem TripInv.step (h : TripInv cb σ past) (x : ClockedStep) (hx : σ.Attributes x) :
    TripInv cb (σ.step x) (past ++ [⟨σ, x, σ.step x⟩]) := by
  have hmap : (past ++ [(⟨σ, x, σ.step x⟩ : PoolStep)]).map (·.action) =
      past.map (·.action) ++ [x] := by simp
  refine ⟨?_, ?_⟩
  · rw [hmap]
    exact CircuitInv.step cb σ _ x h.circuits
  · intro addr hfail
    rw [σ.step_sole x]
    rw [hmap, outcomesOf, List.filterMap_append, List.mem_append] at hfail
    rcases hfail with hfail | hfail
    · exact h.sole addr hfail
    · -- the step itself is a failed request for the address
      obtain ⟨y, hy, hout⟩ := List.mem_filterMap.mp hfail
      obtain rfl := List.mem_singleton.mp hy
      split at hout
      · rename_i a ok
        split at hout
        · rename_i ha
          obtain rfl := Option.some.inj hout
          exact ha ▸ h.sole_outcome a hx
        · cases hout
      · cases hout

/-- No request has failed at the start. -/
theorem PoolState.BuiltFrom.tripInv {ps : PoolState} {p : PoolConfig} {backends : List Backend}
    (hps : ps.BuiltFrom p backends) (hcb : p.circuitBreaker = some cb) (now : Time) :
    TripInv cb ⟨now, ps⟩ [] where
  circuits := by
    have hservers : ps.servers = newServers backends := by rcases hps with rfl | rfl <;> rfl
    have hbreakers : ps.breakers = some (newBreakers cb (newServers backends)) := by
      rcases hps with rfl | rfl <;> simp [buildPoolState, updatedPoolState, hcb]
    have hinv := circuitInv_newBreakers cb (newServers backends) (by simp [newServers, newServer])
    rw [← hservers] at hinv
    have hcell : ps.cell = fun a => (newBreakers cb ps.servers).lookup a := by
      funext a
      rw [PoolState.cell, hbreakers, hservers]
      rfl
    rw [hcell]
    exact hinv
  sole := fun _ hfail => absurd hfail (List.not_mem_nil)

/-- The flag of a server whose address was tripped is up. -/
theorem TripInv.flag_of_trips (h : TripInv cb σ past) (i : Nat) (s : Server)
    (hs : σ.pool.servers[i]? = some s)
    (htrips : Trips cb (outcomesOf (past.map (·.action)) s.address)) : s.circuitOpen = true := by
  have hfail : false ∈ outcomesOf (past.map (·.action)) s.address :=
    htrips.mem (List.mem_replicate.mpr ⟨by omega, rfl⟩)
  have hi : σ.pool.addressOf i = some s.address := by simp [PoolState.addressOf, hs]
  have hsole := h.sole s.address hfail
  have hcircuit := PoolState.circuits_getElem? σ.pool i s hs
  obtain ⟨c, hc, -⟩ := h.circuits.covered i _ _ hcircuit
  -- the breaker of the address writes the flag of this server
  obtain rfl : c.server = i := by
    refine (h.circuits.server_eq_iff cb _ σ.pool i s c hs hc).mpr fun j s' hs' ha => ?_
    have hj : σ.pool.addressOf j = some s.address := by simp [PoolState.addressOf, hs', ha]
    exact (hsole.eq hj hi).le
  obtain ⟨f, hf, htracks⟩ := h.circuits.tracks _ c hc
  rw [hcircuit] at hf
  obtain ⟨-, rfl⟩ := Prod.mk.inj (Option.some.inj hf)
  rcases htracks.status with ⟨-, -, -, -, hnot⟩ | ⟨-, -, hflag, -⟩
  · exact absurd htrips hnot
  · exact hflag

end Trip

/-! ## Picks -/

/-- A `Pick` that returns a backend returns none whose address was reported as failed
    and has not had the successful probes it takes since, and none whose address has
    had the failures in a row that open its circuit: in a running pool nothing takes
    a breaker out of the open state. -/
def PoolStep.PicksReadmitted (p : PoolConfig) (past : List PoolStep) (t : PoolStep) : Prop :=
  ∀ draw key i addr, t.action = .event (.pick draw key) →
    (t.before.pool.pick draw key).1 = .ok i → t.before.pool.addressOf i = some addr →
    (∀ hc, p.healthCheck = some hc → hc.type = "tcp" ∨ hc.type = "http" →
      ∀ n, successesSinceReport addr past = some n → hc.healthyThreshold ≤ n) ∧
    ∀ cb, p.circuitBreaker = some cb → ¬ Trips cb (outcomesOf (past.map (·.action)) addr)

/-- Round robin with probes, and breakers that open at the first failure. -/
def guardedPool : PoolConfig :=
  { fragilePool with
    healthCheck := some tcpCheck
    circuitBreaker := some
      { failureThreshold := 1, openDuration := 30000000000, halfOpenMaxProbes := 1 } }

/-- A guarded pool of two backends. -/
def guardedPair (a b : String) : ClockedPool :=
  { now := 0, pool := buildPoolState guardedPool [⟨a, 1⟩, ⟨b, 1⟩] }

end HootLb.Runtime
