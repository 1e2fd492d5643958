import HootLb.ForStd.Trace
import HootLb.Spec.BreakerRecovery

/-!
# Health hysteresis

The healthy flag of one backend along any run of its pool. A checker entry keeps
two counters that probes and passive failure reports reset at different moments;
the results below say that the flag moves as if the counts were made from scratch
at every change of the flag.

## Key results

- `PoolState.apply_health`: an event acts on the health of a backend as the signal
  it sends to it
- `Health.Follows.signal`: one signal keeps the counters in step with the probes
- `health_changes`: when the healthy flag of a backend changes
-/

namespace HootLb.Runtime

open Balancer Circuitbreaker Config

/-! ## The health of one backend -/

/-- What the pool knows about the health of one backend. -/
structure Health where
  healthy : Bool
  consecutiveSuccess : Int
  consecutiveFailure : Int
  deriving DecidableEq

/-- What reaches the health of a backend: the result of a probe, or a passive report. -/
inductive Signal where
  | probe (ok : Bool)
  | report
  deriving DecidableEq

/-- The health of a backend after a signal. -/
def Health.signal (hc : HealthCheckConfig) (h : Health) : Signal → Health
  | .report => if h.healthy then { h with healthy := false, consecutiveSuccess := 0 } else h
  | .probe true =>
    if !h.healthy ∧ h.consecutiveSuccess + 1 ≥ hc.healthyThreshold then
      { healthy := true, consecutiveSuccess := 0, consecutiveFailure := 0 }
    else { h with consecutiveFailure := 0, consecutiveSuccess := h.consecutiveSuccess + 1 }
  | .probe false =>
    if h.healthy ∧ h.consecutiveFailure + 1 ≥ hc.unhealthyThreshold then
      { healthy := false, consecutiveSuccess := 0, consecutiveFailure := 0 }
    else { h with consecutiveSuccess := 0, consecutiveFailure := h.consecutiveFailure + 1 }

/-- The health of a backend after an event, given the signal the event sends to it. -/
def Health.receive (hc : HealthCheckConfig) (h : Health) : Option Signal → Health
  | none => h
  | some s => h.signal hc s

namespace PoolState

/-- The health of backend `i`: its flag and the counters of its checker entry. -/
def health (ps : PoolState) (i : Nat) : Option Health :=
  ps.fr.bind fun c => c.backends[i]?.map fun bh =>
    { healthy := (ps.deref i).healthy, consecutiveSuccess := bh.consecutiveSuccess
      consecutiveFailure := bh.consecutiveFailure }

/-- The signal an event sends to backend `i`. A passive report reaches the first
    server with the address. -/
def signal (ps : PoolState) (i : Nat) : PoolEvent → Option Signal
  | .probe k ok => if k = i then some (.probe ok) else none
  | .reportFailure addr =>
    if ps.servers.findIdx? (fun s => s.address = addr) = some i then some .report else none
  | _ => none

/-- The pool has a checker with these settings, which watches its servers in order. -/
structure Watches (ps : PoolState) (hc : HealthCheckConfig) : Prop where
  cfg : ps.fr.map (·.cfg) = some hc
  watched : ps.watched = some (List.range ps.servers.length)

variable {ps : PoolState} {hc : HealthCheckConfig}

theorem Watches.apply (h : ps.Watches hc) (now : Time) (e : PoolEvent) :
    (ps.apply now e).Watches hc where
  cfg := by rw [apply_cfg]; exact h.cfg
  watched := by
    have hlen := congrArg List.length (ps.apply_addresses now e)
    rw [List.length_map, List.length_map] at hlen
    rw [apply_watched, hlen]
    exact h.watched

/-- The checker of a pool that is watched; its `i`-th entry is for the `i`-th server. -/
theorem Watches.checker (h : ps.Watches hc) :
    ∃ c, ps.fr = some c ∧ c.cfg = hc ∧
      c.backends.map (·.server) = List.range ps.servers.length := by
  obtain ⟨hcfg, hwatched⟩ := h
  unfold PoolState.watched at hwatched
  cases hfr : ps.fr with
  | none => rw [hfr] at hcfg; cases hcfg
  | some c =>
    rw [hfr] at hcfg hwatched
    exact ⟨c, rfl, Option.some.inj hcfg, Option.some.inj hwatched⟩

/-- The server of a checker entry. -/
private theorem entry_server {c : Checker} {n i : Nat} {bh : BackendHealth}
    (h : c.backends.map (·.server) = List.range n) (hbh : c.backends[i]? = some bh) :
    bh.server = i ∧ i < n := by
  have hi : (c.backends.map (·.server))[i]? = some bh.server := by rw [List.getElem?_map, hbh]; rfl
  rw [h, List.getElem?_eq_some_iff] at hi
  obtain ⟨hlt, heq⟩ := hi
  rw [List.length_range] at hlt
  rw [List.getElem_range] at heq
  exact ⟨heq.symm, hlt⟩

/-- Setting the flag of server `k` and changing its entry is seen by backend `k` only. -/
private theorem health_set (c : Checker) (bh : BackendHealth) (k i : Nat) (b : Bool)
    (f : BackendHealth → BackendHealth) (hfr : ps.fr = some c) (hk : k < ps.servers.length)
    (hbh : c.backends[k]? = some bh) :
    ((ps.modifyServer k fun s => { s with healthy := b }).modifyHealth k f).health i =
      if k = i then
        some { healthy := b, consecutiveSuccess := (f bh).consecutiveSuccess
               consecutiveFailure := (f bh).consecutiveFailure }
      else ps.health i := by
  by_cases hki : k = i
  · subst hki
    simp [health, modifyHealth, modifyServer, hfr, deref, derefIn, hbh, hk]
  · simp [health, modifyHealth, modifyServer, hfr, deref, derefIn, hki]

/-- Changing an entry alone. -/
private theorem health_count (c : Checker) (bh : BackendHealth) (k i : Nat)
    (f : BackendHealth → BackendHealth) (hfr : ps.fr = some c) (hbh : c.backends[k]? = some bh) :
    (ps.modifyHealth k f).health i =
      if k = i then
        some { healthy := (ps.deref k).healthy, consecutiveSuccess := (f bh).consecutiveSuccess
               consecutiveFailure := (f bh).consecutiveFailure }
      else ps.health i := by
  by_cases hki : k = i
  · subst hki
    simp [health, modifyHealth, hfr, deref, derefIn, hbh]
  · simp [health, modifyHealth, hfr, deref, derefIn, hki]

/-- The servers of a pool, read through their handles. -/
private theorem servers_eq_map_deref (ps : PoolState) :
    ps.servers = (List.range ps.servers.length).map ps.deref := by
  apply List.ext_getElem
  · simp
  · intro i h₁ h₂
    simp [deref, derefIn, h₁]

/-- The checker looks an address up as the pool does. -/
private theorem findIdx?_backends {c : Checker} (addr : String)
    (h : c.backends.map (·.server) = List.range ps.servers.length) :
    (c.backends.findIdx? fun bh => (ps.deref bh.server).address = addr) =
      ps.servers.findIdx? fun s => s.address = addr := by
  calc (c.backends.findIdx? fun bh => (ps.deref bh.server).address = addr)
      = (c.backends.map (·.server)).findIdx? fun i => (ps.deref i).address = addr := by
        rw [List.findIdx?_map]; rfl
    _ = ((List.range ps.servers.length).map ps.deref).findIdx? fun s => s.address = addr := by
        rw [h, List.findIdx?_map]; rfl
    _ = ps.servers.findIdx? fun s => s.address = addr := by rw [← servers_eq_map_deref]

/-- A health that changes as a signal changes it. -/
private theorem health_signal_of_eq {k i : Nat} {before after : Health} {signal : Health → Health}
    (hbefore : ps.health k = some before) (hafter : signal before = after) :
    (if k = i then some after else ps.health i) =
      if k = i then (ps.health i).map signal else ps.health i := by
  refine ite_congr rfl (fun hki => ?_) (fun _ => rfl)
  subst hki
  rw [hbefore, Option.map_some, hafter]

/-- A probe of backend `k` as the signal it is. -/
private theorem runCheck_health (h : ps.Watches hc) (htype : hc.type = "tcp" ∨ hc.type = "http")
    (k i : Nat) (ok : Bool) :
    (ps.runCheck k ok).health i =
      if k = i then (ps.health i).map (·.signal hc (.probe ok)) else ps.health i := by
  obtain ⟨c, hfr, rfl, hservers⟩ := h.checker
  have hknown : ¬ (c.cfg.type ≠ "tcp" ∧ c.cfg.type ≠ "http") := by tauto
  simp only [runCheck, hfr, if_neg hknown]
  cases hbh : c.backends[k]? with
  | none =>
    by_cases hki : k = i
    · subst hki
      simp [health, hfr, hbh]
    · rw [if_neg hki]
  | some bh =>
    obtain ⟨hserver, hlt⟩ := entry_server hservers hbh
    have hhealth : ps.health k = some ⟨(ps.deref k).healthy, bh.consecutiveSuccess,
        bh.consecutiveFailure⟩ := by simp [health, hfr, hbh]
    -- the entry after a success or a failure, at the threshold or below it
    cases ok with
    | true =>
      simp only [hserver, if_true]
      split <;> rename_i hcond
      · rw [health_set c bh k i true _ hfr hlt hbh]
        exact health_signal_of_eq hhealth (if_pos hcond)
      · rw [health_count c bh k i _ hfr hbh]
        exact health_signal_of_eq hhealth (if_neg hcond)
    | false =>
      simp only [hserver, Bool.false_eq_true, if_false]
      split <;> rename_i hcond
      · rw [health_set c bh k i false _ hfr hlt hbh]
        exact health_signal_of_eq hhealth (if_pos hcond)
      · rw [health_count c bh k i _ hfr hbh]
        exact health_signal_of_eq hhealth (if_neg hcond)

/-- A passive report as the signal it is. -/
private theorem reportFailure_health (h : ps.Watches hc) (addr : String) (i : Nat) :
    (ps.reportFailure addr).health i =
      if ps.servers.findIdx? (fun s => s.address = addr) = some i then
        (ps.health i).map (·.signal hc .report)
      else ps.health i := by
  obtain ⟨c, hfr, -, hservers⟩ := h.checker
  simp only [reportFailure, hfr, findIdx?_backends addr hservers]
  cases hk : ps.servers.findIdx? fun s => s.address = addr with
  | none => simp
  | some k =>
    simp only [Option.some.injEq]
    have hklt : k < ps.servers.length := (List.findIdx?_eq_some_iff_getElem.mp hk).1
    have hlen : c.backends.length = ps.servers.length := by
      simpa using congrArg List.length hservers
    obtain ⟨bh, hbh⟩ : ∃ bh, c.backends[k]? = some bh :=
      ⟨c.backends[k], List.getElem?_eq_getElem (by omega)⟩
    obtain ⟨hserver, -⟩ := entry_server hservers hbh
    have hhealth : ps.health k = some ⟨(ps.deref k).healthy, bh.consecutiveSuccess,
        bh.consecutiveFailure⟩ := by simp [health, hfr, hbh]
    simp only [hbh, hserver]
    -- only a healthy server is marked; for any other the report does nothing
    split <;> rename_i hhealthy
    · rw [health_set c bh k i false _ hfr hklt hbh]
      exact health_signal_of_eq hhealth (if_pos hhealthy)
    · refine (ite_eq_right_iff.mpr fun hki => ?_).symm
      subst hki
      simp only [hhealth, Option.map_some, Health.signal, if_neg hhealthy]

/-- An event that is neither a probe nor a report leaves every health alone. -/
private theorem apply_health_of_silent (now : Time) (e : PoolEvent) (i : Nat)
    (hp : ∀ k ok, e ≠ .probe k ok) (hr : ∀ addr, e ≠ .reportFailure addr) :
    (ps.apply now e).health i = ps.health i := by
  have hflag : ((ps.apply now e).deref i).healthy = (ps.deref i).healthy := by
    obtain ⟨k, c, hs, hcause⟩ := ps.apply_servers now e
    have hkeep : ∀ s, (FlagChange.apply c s).healthy = s.healthy := by
      intro s
      cases c with
      | keep | draining b | circuitOpen b => rfl
      | healthy b =>
        rcases hcause with ⟨addr, rfl⟩ | ⟨k, ok, rfl⟩
        · exact absurd rfl (hr addr)
        · exact absurd rfl (hp k ok)
    simp only [deref, derefIn, hs, List.getD_eq_getElem?_getD, List.getElem?_modify]
    cases ps.servers[i]? with
    | none => rfl
    | some s => by_cases hki : k = i <;> simp [hki, hkeep]
  have hfr : (ps.apply now e).fr = ps.fr := by
    cases e with
    | pick | acquire | release => rfl
    | outcome addr ok =>
      cases ok <;> simp [PoolState.apply, PoolState.recordSuccess, PoolState.recordFailure]
    | reportFailure addr => exact absurd rfl (hr addr)
    | probe k ok => exact absurd rfl (hp k ok)
    | setDraining addr draining =>
      simp only [PoolState.apply, PoolState.setDraining]
      cases ps.servers.findIdx? fun s => s.address = addr <;> rfl
  simp only [health, hfr, hflag]

/-- An event acts on the health of a backend as the signal it sends to it. -/
theorem apply_health (h : ps.Watches hc) (htype : hc.type = "tcp" ∨ hc.type = "http") (now : Time)
    (e : PoolEvent) (i : Nat) :
    (ps.apply now e).health i =
      (ps.health i).map (·.receive hc (ps.signal i e)) := by
  have silent : (∀ k ok, e ≠ .probe k ok) → (∀ addr, e ≠ .reportFailure addr) →
      ps.signal i e = none →
      (ps.apply now e).health i = (ps.health i).map (·.receive hc (ps.signal i e)) := by
    intro hp hr hnone
    rw [apply_health_of_silent now e i hp hr, hnone]
    simp [Health.receive]
  cases e with
  | pick | acquire | release | outcome | setDraining =>
    exact silent (fun _ _ he => by cases he) (fun _ he => by cases he) rfl
  | probe k ok =>
    rw [apply, runCheck_health h htype k i ok]
    by_cases hki : k = i <;> simp [signal, hki, Health.receive]
  | reportFailure addr =>
    rw [apply, reportFailure_health h addr i]
    by_cases hk : ps.servers.findIdx? (fun s => s.address = addr) = some i <;>
      simp [signal, hk, Health.receive]

end PoolState

/-! ## Probes so far -/

/-- A step of a running pool, with the pool around it. -/
abbrev PoolStep := Transition ClockedPool ClockedStep

/-- The signal a step sends to backend `i`. -/
def ClockedPool.signal (σ : ClockedPool) (i : Nat) : ClockedStep → Option Signal
  | .event e => σ.pool.signal i e
  | .advance _ => none

/-- The result of a probe of backend `i`. -/
def probeOf (i : Nat) : ClockedStep → Option Bool
  | .event (.probe k ok) => if k = i then some ok else none
  | _ => none

/-- The results of the probes of backend `i` since its flag last became `v`, as long
    as it is `v`. -/
def probesSince (i : Nat) (v : Bool) (past : List PoolStep) : List Bool :=
  (past.rtakeWhile fun t => (t.before.pool.deref i).healthy = v).filterMap
    fun t => probeOf i t.action

theorem probesSince_concat (i : Nat) (v : Bool) (past : List PoolStep) (t : PoolStep)
    (h : (t.before.pool.deref i).healthy = v) :
    probesSince i v (past ++ [t]) = probesSince i v past ++ (probeOf i t.action).toList := by
  unfold probesSince
  rw [List.rtakeWhile_concat_pos _ _ _ (by simpa using h), List.filterMap_append]
  cases hp : probeOf i t.action <;> simp [hp]

/-- A step at which the flag has another value starts the count again. -/
theorem probesSince_concat_of_ne (i : Nat) (v : Bool) (past : List PoolStep) (t : PoolStep)
    (h : (t.before.pool.deref i).healthy ≠ v) : probesSince i v (past ++ [t]) = [] := by
  unfold probesSince
  rw [List.rtakeWhile_concat_neg _ _ _ (by simpa using h)]
  rfl

/-- Probes are the signals with a result. -/
theorem probeOf_eq_some_iff (σ : ClockedPool) (i : Nat) (x : ClockedStep) (ok : Bool) :
    probeOf i x = some ok ↔ σ.signal i x = some (.probe ok) := by
  cases x with
  | advance d => simp [probeOf, ClockedPool.signal]
  | event e =>
    cases e with
    | probe k r => by_cases hk : k = i <;> simp [probeOf, ClockedPool.signal, PoolState.signal, hk]
    | reportFailure addr =>
      simp only [probeOf, ClockedPool.signal, PoolState.signal]
      split <;> simp
    | pick | acquire | release | outcome | setDraining =>
      simp [probeOf, ClockedPool.signal, PoolState.signal]

/-! ## Counters in step with the probes -/

/-- The counter that matters next counts the probes since the flag last changed. -/
structure Health.Follows (hc : HealthCheckConfig) (i : Nat) (h : Health) (past : List PoolStep) :
    Prop where
  failures : h.healthy = true →
    h.consecutiveFailure = (probesSince i true past).streak false ∧
      h.consecutiveFailure < hc.unhealthyThreshold
  successes : h.healthy = false →
    h.consecutiveSuccess = (probesSince i false past).streak true ∧
      h.consecutiveSuccess < hc.healthyThreshold

namespace Health

section Follows

variable {hc : HealthCheckConfig} {i : Nat} {h : Health} {past : List PoolStep}

/-- A step that is no probe of the backend adds no result. -/
private theorem probeOf_eq_none {i : Nat} {t : PoolStep}
    (h : ∀ ok, t.before.signal i t.action ≠ some (.probe ok)) : probeOf i t.action = none := by
  cases hp : probeOf i t.action with
  | none => rfl
  | some ok => exact absurd ((probeOf_eq_some_iff t.before i t.action ok).mp hp) (h ok)

/-- A backend whose flag has just changed starts from scratch. -/
private theorem Follows.changed {t : PoolStep} (b : Bool)
    (hflag : (t.before.pool.deref i).healthy = !b) (hh : 1 ≤ hc.healthyThreshold)
    (hu : 1 ≤ hc.unhealthyThreshold) (s f : Int) (hs : b = false → s = 0) (hf : b = true → f = 0) :
    Follows hc i ⟨b, s, f⟩ (past ++ [t]) := by
  have hnone : probesSince i b (past ++ [t]) = [] :=
    probesSince_concat_of_ne i b past t (by simp [hflag])
  cases b with
  | true =>
    rw [hf rfl]
    exact ⟨fun _ => ⟨by rw [hnone]; rfl, show (0 : Int) < _ by omega⟩, fun hc => nomatch hc⟩
  | false =>
    rw [hs rfl]
    exact ⟨fun hc => (nomatch hc), fun _ => ⟨by rw [hnone]; rfl, show (0 : Int) < _ by omega⟩⟩

/-- A healthy backend that stays healthy with a count `f` of failures. -/
private theorem Follows.still_healthy (s f : Int) {t : PoolStep}
    (hcount : f = (probesSince i true (past ++ [t])).streak false)
    (hlt : f < hc.unhealthyThreshold) : Follows hc i ⟨true, s, f⟩ (past ++ [t]) :=
  ⟨fun _ => ⟨hcount, hlt⟩, fun hc => nomatch hc⟩

/-- An unhealthy backend that stays unhealthy with a count `s` of successes. -/
private theorem Follows.still_unhealthy (s f : Int) {t : PoolStep}
    (hcount : s = (probesSince i false (past ++ [t])).streak true)
    (hlt : s < hc.healthyThreshold) : Follows hc i ⟨false, s, f⟩ (past ++ [t]) :=
  ⟨fun hc => (nomatch hc), fun _ => ⟨hcount, hlt⟩⟩

/-- A step on a healthy backend. -/
private theorem Follows.receive_of_healthy {s f : Int} (hfol : Follows hc i ⟨true, s, f⟩ past)
    (t : PoolStep) (hflag : (t.before.pool.deref i).healthy = true)
    (hh : 1 ≤ hc.healthyThreshold) (hu : 1 ≤ hc.unhealthyThreshold) :
    (receive hc ⟨true, s, f⟩ (t.before.signal i t.action)).Follows hc i (past ++ [t]) := by
  obtain ⟨hcount, hlt⟩ := hfol.failures rfl
  have hprobes := probesSince_concat i true past t hflag
  cases hsig : t.before.signal i t.action with
  | none =>
    rw [probeOf_eq_none (by simp [hsig]), Option.toList_none, List.append_nil] at hprobes
    exact still_healthy s f (hprobes ▸ hcount) hlt
  | some sig =>
    cases sig with
    | report => exact changed false hflag hh hu 0 f (fun _ => rfl) (fun hc => nomatch hc)
    | probe ok =>
      rw [(probeOf_eq_some_iff t.before i t.action ok).mpr hsig, Option.toList_some] at hprobes
      cases ok with
      | true =>
        refine still_healthy (s + 1) 0 ?_ (by omega)
        rw [hprobes, List.streak_concat_of_ne _ _ _ (by simp)]
        rfl
      | false =>
        -- one failure more: at the threshold the server falls, below it the streak is longer
        simp only [receive, signal, true_and]
        split
        · exact changed false hflag hh hu 0 0 (fun _ => rfl) (fun hc => nomatch hc)
        · rename_i hge
          refine still_healthy 0 (f + 1) ?_ (by omega)
          rw [hprobes, List.streak_concat_self, show f = _ from hcount]
          rfl

/-- A step on an unhealthy backend. -/
private theorem Follows.receive_of_unhealthy {s f : Int} (hfol : Follows hc i ⟨false, s, f⟩ past)
    (t : PoolStep) (hflag : (t.before.pool.deref i).healthy = false)
    (hh : 1 ≤ hc.healthyThreshold) (hu : 1 ≤ hc.unhealthyThreshold) :
    (receive hc ⟨false, s, f⟩ (t.before.signal i t.action)).Follows hc i (past ++ [t]) := by
  obtain ⟨hcount, hlt⟩ := hfol.successes rfl
  have hprobes := probesSince_concat i false past t hflag
  have same (hno : ∀ ok, t.before.signal i t.action ≠ some (.probe ok)) :
      Follows hc i ⟨false, s, f⟩ (past ++ [t]) := by
    rw [probeOf_eq_none hno, Option.toList_none, List.append_nil] at hprobes
    exact still_unhealthy s f (hprobes ▸ hcount) hlt
  cases hsig : t.before.signal i t.action with
  | none => exact same (by simp [hsig])
  | some sig =>
    cases sig with
    -- a report on a backend that is unhealthy already changes nothing
    | report => exact same (by simp [hsig])
    | probe ok =>
      rw [(probeOf_eq_some_iff t.before i t.action ok).mpr hsig, Option.toList_some] at hprobes
      cases ok with
      | true =>
        simp only [receive, signal, Bool.not_false, true_and]
        split
        · exact changed true hflag hh hu 0 0 (fun hc => nomatch hc) (fun _ => rfl)
        · rename_i hge
          refine still_unhealthy (s + 1) 0 ?_ (by omega)
          rw [hprobes, List.streak_concat_self, show s = _ from hcount]
          rfl
      | false =>
        refine still_unhealthy 0 (f + 1) ?_ (by omega)
        rw [hprobes, List.streak_concat_of_ne _ _ _ (by simp)]
        rfl

/-- One step keeps the counters in step with the probes. -/
theorem Follows.receive (hfol : h.Follows hc i past) (t : PoolStep)
    (hflag : (t.before.pool.deref i).healthy = h.healthy) (hh : 1 ≤ hc.healthyThreshold)
    (hu : 1 ≤ hc.unhealthyThreshold) :
    (h.receive hc (t.before.signal i t.action)).Follows hc i (past ++ [t]) := by
  obtain ⟨healthy, s, f⟩ := h
  cases healthy with
  | true => exact hfol.receive_of_healthy t hflag hh hu
  | false => exact hfol.receive_of_unhealthy t hflag hh hu

/-- A healthy backend falls at a report or at the last failure it takes. -/
theorem Follows.falls_iff (hfol : h.Follows hc i past) (hhealthy : h.healthy = true)
    (sig : Option Signal) :
    (h.receive hc sig).healthy = false ↔
      sig = some .report ∨ sig = some (.probe false) ∧
        ((probesSince i true past).streak false : Int) + 1 = hc.unhealthyThreshold := by
  obtain ⟨hcount, hlt⟩ := hfol.failures hhealthy
  cases sig with
  | none => simp [Health.receive, hhealthy]
  | some sig =>
    cases sig with
    | report => simp [Health.receive, signal, hhealthy]
    | probe ok =>
      cases ok with
      | true => simp [Health.receive, signal, hhealthy]
      | false =>
        have hiff : h.consecutiveFailure + 1 ≥ hc.unhealthyThreshold ↔
            ((probesSince i true past).streak false : Int) + 1 = hc.unhealthyThreshold := by
          omega
        simp only [Health.receive, signal, hhealthy, true_and, hiff]
        split <;> rename_i heq <;> simp [heq]

/-- An unhealthy backend rises at the last success it takes. -/
theorem Follows.rises_iff (hfol : h.Follows hc i past) (hunhealthy : h.healthy = false)
    (sig : Option Signal) :
    (h.receive hc sig).healthy = true ↔
      sig = some (.probe true) ∧
        ((probesSince i false past).streak true : Int) + 1 = hc.healthyThreshold := by
  obtain ⟨hcount, hlt⟩ := hfol.successes hunhealthy
  cases sig with
  | none => simp [Health.receive, hunhealthy]
  | some sig =>
    cases sig with
    | report => simp [Health.receive, signal, hunhealthy]
    | probe ok =>
      cases ok with
      | false => simp [Health.receive, signal, hunhealthy]
      | true =>
        have hiff : h.consecutiveSuccess + 1 ≥ hc.healthyThreshold ↔
            ((probesSince i false past).streak true : Int) + 1 = hc.healthyThreshold := by
          omega
        simp only [Health.receive, signal, hunhealthy, Bool.not_false, true_and, hiff]
        split <;> rename_i heq <;> simp [heq]

end Follows

end Health

/-! ## Runs -/

/-- A pool just built, by `BuildSnapshot` or by `UpdatePoolBackends`. -/
def PoolState.BuiltFrom (ps : PoolState) (p : PoolConfig) (backends : List Backend) : Prop :=
  ps = buildPoolState p backends ∨ ps = updatedPoolState p backends

/-- A passive report that the checker looks up to backend `i`. -/
def ClockedPool.ReportsFailure (σ : ClockedPool) (i : Nat) (x : ClockedStep) : Prop :=
  ∃ addr, x = .event (.reportFailure addr) ∧
    σ.pool.servers.findIdx? (fun s => s.address = addr) = some i

/-- When the healthy flag of backend `i` changes. -/
structure PoolStep.Hysteresis (hc : HealthCheckConfig) (i : Nat) (past : List PoolStep)
    (t : PoolStep) : Prop where
  /-- It falls at a passive report, and at a failed probe that is the last of as many
      in a row as it takes, all since the flag last rose. -/
  falls : (t.before.pool.deref i).healthy = true →
    ((t.after.pool.deref i).healthy = false ↔
      t.before.ReportsFailure i t.action ∨
      t.action = .event (.probe i false) ∧
        ((probesSince i true past).streak false : Int) + 1 = hc.unhealthyThreshold)
  /-- It rises at a successful probe that is the last of as many in a row as it
      takes, all since the flag last fell. -/
  rises : (t.before.pool.deref i).healthy = false →
    ((t.after.pool.deref i).healthy = true ↔
      t.action = .event (.probe i true) ∧
        ((probesSince i false past).streak true : Int) + 1 = hc.healthyThreshold)

/-- The health of a backend shows its flag. -/
theorem PoolState.health_healthy {ps : PoolState} {i : Nat} {h : Health}
    (hh : ps.health i = some h) : (ps.deref i).healthy = h.healthy := by
  simp only [PoolState.health, Option.bind_eq_some_iff, Option.map_eq_some_iff] at hh
  obtain ⟨c, -, bh, -, rfl⟩ := hh
  rfl

/-- The health of a backend after a step of a running pool. -/
theorem ClockedPool.step_health {σ : ClockedPool} {hc : HealthCheckConfig} {i : Nat} {h : Health}
    (hw : σ.pool.Watches hc) (htype : hc.type = "tcp" ∨ hc.type = "http")
    (hh : σ.pool.health i = some h) (x : ClockedStep) :
    (σ.step x).pool.Watches hc ∧
      (σ.step x).pool.health i = some (h.receive hc (σ.signal i x)) := by
  cases x with
  | advance d => exact ⟨hw, hh⟩
  | event e =>
    refine ⟨hw.apply σ.now e, ?_⟩
    simp only [ClockedPool.step, ClockedPool.signal, PoolState.apply_health hw htype, hh,
      Option.map_some]

/-- The checker of a pool just built. -/
private theorem PoolState.BuiltFrom.fr {ps : PoolState} {p : PoolConfig} {backends : List Backend}
    {hc : HealthCheckConfig} (hps : ps.BuiltFrom p backends) (hcheck : p.healthCheck = some hc)
    (htype : hc.type = "tcp" ∨ hc.type = "http") :
    ps.servers = newServers backends ∧
      ps.fr = some { poolName := p.name, cfg := hc, backends :=
        (List.range (newServers backends).length).map fun i => ⟨i, 0, 0⟩ } := by
  have hnone : hc.type ≠ "none" := by
    rcases htype with htype | htype <;> simp [htype]
  have hfr : ps.fr = newChecker p (newServers backends) := by rcases hps with rfl | rfl <;> rfl
  simp only [newChecker, hcheck, if_neg hnone] at hfr
  exact ⟨by rcases hps with rfl | rfl <;> rfl, hfr⟩

/-- A pool just built watches its servers. -/
theorem PoolState.BuiltFrom.watches {ps : PoolState} {p : PoolConfig} {backends : List Backend}
    {hc : HealthCheckConfig} (hps : ps.BuiltFrom p backends) (hcheck : p.healthCheck = some hc)
    (htype : hc.type = "tcp" ∨ hc.type = "http") : ps.Watches hc := by
  obtain ⟨hservers, hfr⟩ := hps.fr hcheck htype
  exact ⟨by rw [hfr]; rfl, by simp [PoolState.watched, hfr, hservers, Function.comp_def]⟩

/-- The backends of a pool just built are healthy and not yet probed. -/
private theorem PoolState.BuiltFrom.health {ps : PoolState} {p : PoolConfig}
    {backends : List Backend} {hc : HealthCheckConfig} (hps : ps.BuiltFrom p backends)
    (hcheck : p.healthCheck = some hc) (htype : hc.type = "tcp" ∨ hc.type = "http") {i : Nat}
    (hi : i < backends.length) : ps.health i = some ⟨true, 0, 0⟩ := by
  obtain ⟨hservers, hfr⟩ := hps.fr hcheck htype
  simp [PoolState.health, hfr, PoolState.deref, derefIn, hservers, newServers, newServer, hi]

/-- The signals that make the flag fall or rise, as steps. -/
theorem ClockedPool.signal_probe_iff (σ : ClockedPool) (i : Nat) (x : ClockedStep) (ok : Bool) :
    σ.signal i x = some (.probe ok) ↔ x = .event (.probe i ok) := by
  rw [← probeOf_eq_some_iff]
  cases x with
  | advance d => simp [probeOf]
  | event e =>
    cases e with
    | probe k r => by_cases hk : k = i <;> simp [probeOf, hk]
    | pick | acquire | release | outcome | reportFailure | setDraining => simp [probeOf]

theorem ClockedPool.signal_report_iff (σ : ClockedPool) (i : Nat) (x : ClockedStep) :
    σ.signal i x = some .report ↔ σ.ReportsFailure i x := by
  unfold ClockedPool.ReportsFailure
  cases x with
  | advance d => simp [ClockedPool.signal]
  | event e =>
    cases e with
    | reportFailure addr => simp [ClockedPool.signal, PoolState.signal]
    | probe k r => by_cases hk : k = i <;> simp [ClockedPool.signal, PoolState.signal, hk]
    | pick | acquire | release | outcome | setDraining =>
      simp [ClockedPool.signal, PoolState.signal]

/-- Along every run of a pool with health checks, the healthy flag of every backend
    changes exactly at the reports and at the probes that complete a count. -/
theorem health_changes (p : PoolConfig) (hc : HealthCheckConfig) (backends : List Backend)
    (ps : PoolState) (hps : ps.BuiltFrom p backends) (hcheck : p.healthCheck = some hc)
    (htype : hc.type = "tcp" ∨ hc.type = "http") (hh : 1 ≤ hc.healthyThreshold)
    (hu : 1 ≤ hc.unhealthyThreshold) (i : Nat) (hi : i < backends.length) (now : Time)
    (run : List ClockedStep) (past : List PoolStep) (t : PoolStep) (rest : List PoolStep)
    (hrun : Transition.trace ClockedPool.step ⟨now, ps⟩ run = past ++ t :: rest) :
    t.Hysteresis hc i past := by
  have hw := hps.watches hcheck htype
  have hhealth := hps.health hcheck htype hi
  -- the counters follow the probes from the beginning of the run to the step
  have hstart : Health.Follows hc i ⟨true, 0, 0⟩ [] :=
    ⟨fun _ => ⟨rfl, show (0 : Int) < _ by omega⟩, fun hf => nomatch hf⟩
  obtain ⟨⟨hw, h, hh', hfol⟩, -, hafter⟩ := Transition.trace_cut ClockedPool.step (fun _ _ => True)
    (fun σ past => σ.pool.Watches hc ∧ ∃ h, σ.pool.health i = some h ∧ h.Follows hc i past)
    (fun σ past x _ ⟨hw, h, hh', hfol⟩ =>
      have hnext := ClockedPool.step_health hw htype hh' x
      ⟨hnext.1, _, hnext.2, hfol.receive ⟨σ, x, σ.step x⟩ (PoolState.health_healthy hh') hh hu⟩)
    ⟨now, ps⟩ [] ⟨hw, _, hhealth, hstart⟩ run (List.along_trivial _ _ _) past t rest hrun
  rw [List.nil_append] at hfol
  have hbefore := PoolState.health_healthy hh'
  have hnext := PoolState.health_healthy (ClockedPool.step_health hw htype hh' t.action).2
  rw [← hafter] at hnext
  constructor
  · intro hhealthy
    rw [hnext, hfol.falls_iff (hbefore.symm.trans hhealthy), ClockedPool.signal_report_iff,
      ClockedPool.signal_probe_iff]
  · intro hunhealthy
    rw [hnext, hfol.rises_iff (hbefore.symm.trans hunhealthy), ClockedPool.signal_probe_iff]

/-- Probes over TCP; two successes bring a backend back, three failures exclude it. -/
def tcpCheck : HealthCheckConfig :=
  { type := "tcp", path := "", interval := 5000000000, timeout := 1000000000
    healthyThreshold := 2, unhealthyThreshold := 3 }

/-- A pool of one probed backend. -/
def probedPool : ClockedPool :=
  { now := 0
    pool := buildPoolState { fragilePool with healthCheck := some tcpCheck }
      [⟨"10.0.0.1:8080", 1⟩] }

/-- The second successful probe after a passive report. -/
theorem health_changes_second_success :
    PoolStep.Hysteresis tcpCheck 0
      (Transition.trace ClockedPool.step probedPool
        [.event (.reportFailure "10.0.0.1:8080"), .event (.probe 0 true)])
      ⟨(probedPool.step (.event (.reportFailure "10.0.0.1:8080"))).step (.event (.probe 0 true)),
        .event (.probe 0 true),
        ((probedPool.step (.event (.reportFailure "10.0.0.1:8080"))).step
          (.event (.probe 0 true))).step (.event (.probe 0 true))⟩ :=
  health_changes { fragilePool with healthCheck := some tcpCheck } tcpCheck
    [⟨"10.0.0.1:8080", 1⟩] probedPool.pool (Or.inl rfl) rfl (Or.inl rfl) (by decide) (by decide) 0
    (by decide) 0
    [.event (.reportFailure "10.0.0.1:8080"), .event (.probe 0 true), .event (.probe 0 true)]
    _ _ [] rfl

end HootLb.Runtime
