import HootLb.ForStd.List
import HootLb.Native.PoolState

/-!
# What an event does to a pool

Every event of an installed pool changes at most one flag of one server; the
members of the pool, their order and their weights never change. The invariants
of later modules are read off `PoolState.apply_changedBy`.
-/

namespace HootLb.Runtime

open Balancer Circuitbreaker Config

/-- A change of at most one flag of a server. -/
inductive FlagChange where
  | keep
  | healthy (b : Bool)
  | draining (b : Bool)
  | circuitOpen (b : Bool)

def FlagChange.apply : FlagChange → Server → Server
  | keep, s => s
  | healthy b, s => { s with healthy := b }
  | draining b, s => { s with draining := b }
  | circuitOpen b, s => { s with circuitOpen := b }

@[simp] theorem FlagChange.apply_address (c : FlagChange) (s : Server) :
    (c.apply s).address = s.address := by
  cases c <;> rfl

@[simp] theorem FlagChange.apply_weight (c : FlagChange) (s : Server) :
    (c.apply s).weight = s.weight := by
  cases c <;> rfl

/-- Which event may cause which change, at which position: draining changes only
    at the first server with the address, the circuit flag only on an outcome. -/
def FlagChange.CausedBy (c : FlagChange) (ps : PoolState) (e : PoolEvent) (i : Nat) : Prop :=
  match c with
  | keep => True
  | healthy _ => (∃ addr, e = .reportFailure addr) ∨ ∃ k ok, e = .probe k ok
  | draining b => ∃ addr, e = .setDraining addr b ∧
      ps.servers.findIdx? (fun s => s.address = addr) = some i
  | circuitOpen _ => ∃ addr ok, e = .outcome addr ok

/-- The balancer after an event. -/
def PoolState.balancerAfter (ps : PoolState) : PoolEvent → LoadBalancer Nat
  | .pick draw key => (ps.lb.pick ps.deref draw key).2
  | .acquire addr => ps.lb.acquire addr
  | .release addr => ps.lb.release addr
  | _ => ps.lb

/-- Everything an event can do to a pool: one flag of one server and the counters of
    one entry of the checker may change; the balancer changes with the traffic, the
    breakers with the outcomes. -/
structure PoolState.ChangedBy (ps : PoolState) (e : PoolEvent) (ps' : PoolState) : Prop where
  servers : ∃ i c, ps'.servers = ps.servers.modify i (FlagChange.apply c) ∧ c.CausedBy ps e i
  fr : ∃ k f, ps'.fr = ps.fr.map (fun c => { c with backends := c.backends.modify k f }) ∧
    ∀ bh : BackendHealth, (f bh).server = bh.server
  lb : ps'.lb = ps.balancerAfter e
  breakers : (∀ addr ok, e ≠ .outcome addr ok) → ps'.breakers = ps.breakers

section ChangedBy

variable {ps ps' : PoolState} {e : PoolEvent}

private theorem servers_kept (h : ps'.servers = ps.servers) :
    ∃ i c, ps'.servers = ps.servers.modify i (FlagChange.apply c) ∧ c.CausedBy ps e i :=
  ⟨0, .keep, h.trans (List.modify_id 0 ps.servers).symm, trivial⟩

private theorem fr_kept (h : ps'.fr = ps.fr) :
    ∃ k f, ps'.fr = ps.fr.map (fun c => { c with backends := c.backends.modify k f }) ∧
      ∀ bh : BackendHealth, (f bh).server = bh.server :=
  ⟨0, id, by rw [h]; cases ps.fr <;> simp [List.modify_id], fun _ => rfl⟩

/-- An event that finds nothing to change. -/
private theorem changedBy_self (h : ps.balancerAfter e = ps.lb) : ps.ChangedBy e ps :=
  ⟨servers_kept rfl, fr_kept rfl, h.symm, fun _ => rfl⟩

private theorem withBreaker_changedBy (addr : String) (ok : Bool)
    (f : Breaker → Bool → Breaker × Bool) :
    ps.ChangedBy (.outcome addr ok) (ps.withBreaker addr f) := by
  unfold PoolState.withBreaker
  -- no breakers, no breaker for the address, or its flag written back
  split
  · exact changedBy_self rfl
  · split
    · exact changedBy_self rfl
    · exact ⟨⟨_, .circuitOpen _, rfl, addr, ok, rfl⟩, fr_kept rfl, rfl,
        fun he => absurd rfl (he addr ok)⟩

private theorem reportFailure_changedBy (addr : String) :
    ps.ChangedBy (.reportFailure addr) (ps.reportFailure addr) := by
  unfold PoolState.reportFailure
  -- no checker, no such address, no such entry; only a healthy server is marked
  split
  · exact changedBy_self rfl
  · split
    · exact changedBy_self rfl
    · split
      · exact changedBy_self rfl
      · split
        · exact ⟨⟨_, .healthy false, rfl, Or.inl ⟨addr, rfl⟩⟩, ⟨_, _, rfl, fun _ => rfl⟩, rfl,
            fun _ => rfl⟩
        · exact changedBy_self rfl

private theorem runCheck_changedBy (k : Nat) (success : Bool) :
    ps.ChangedBy (.probe k success) (ps.runCheck k success) := by
  unfold PoolState.runCheck
  -- no checker, an unknown type, no such entry; then success or failure at its threshold
  split
  · exact changedBy_self rfl
  · split
    · exact changedBy_self rfl
    · split
      · exact changedBy_self rfl
      · dsimp only
        split <;> split
        · exact ⟨⟨_, .healthy true, rfl, Or.inr ⟨k, success, rfl⟩⟩, ⟨_, _, rfl, fun _ => rfl⟩, rfl,
            fun _ => rfl⟩
        · exact ⟨servers_kept rfl, ⟨_, _, rfl, fun _ => rfl⟩, rfl, fun _ => rfl⟩
        · exact ⟨⟨_, .healthy false, rfl, Or.inr ⟨k, success, rfl⟩⟩, ⟨_, _, rfl, fun _ => rfl⟩, rfl,
            fun _ => rfl⟩
        · exact ⟨servers_kept rfl, ⟨_, _, rfl, fun _ => rfl⟩, rfl, fun _ => rfl⟩

end ChangedBy

theorem PoolState.apply_changedBy (now : Time) (ps : PoolState) (e : PoolEvent) :
    ps.ChangedBy e (ps.apply now e) := by
  cases e with
  | pick | acquire | release => exact ⟨servers_kept rfl, fr_kept rfl, rfl, fun _ => rfl⟩
  | outcome addr ok =>
    cases ok with
    | true => exact withBreaker_changedBy addr true Breaker.recordSuccess
    | false => exact withBreaker_changedBy addr false (Breaker.recordFailure now)
  | reportFailure addr => exact reportFailure_changedBy addr
  | probe k success => exact runCheck_changedBy k success
  | setDraining addr draining =>
    simp only [PoolState.apply, PoolState.setDraining]
    cases hi : ps.servers.findIdx? fun s => s.address = addr with
    | none => exact changedBy_self rfl
    | some i => exact ⟨⟨i, .draining draining, rfl, addr, rfl, hi⟩, fr_kept rfl, rfl, fun _ => rfl⟩

/-- The servers after an event: one of them may have one flag changed. -/
theorem PoolState.apply_servers (now : Time) (ps : PoolState) (e : PoolEvent) :
    ∃ i c, (ps.apply now e).servers = ps.servers.modify i (FlagChange.apply c) ∧
      c.CausedBy ps e i :=
  (ps.apply_changedBy now e).servers

/-- Only outcomes change the breakers. -/
theorem PoolState.apply_breakers (now : Time) (ps : PoolState) (e : PoolEvent)
    (he : ∀ addr ok, e ≠ .outcome addr ok) : (ps.apply now e).breakers = ps.breakers :=
  (ps.apply_changedBy now e).breakers he

/-- Only traffic changes the balancer. -/
theorem PoolState.apply_lb (now : Time) (ps : PoolState) (e : PoolEvent) :
    (ps.apply now e).lb = ps.balancerAfter e :=
  (ps.apply_changedBy now e).lb

/-- The members of a pool survive every event. -/
@[simp] theorem PoolState.apply_members (now : Time) (ps : PoolState) (e : PoolEvent) :
    (ps.apply now e).members = ps.members := by
  obtain ⟨i, c, hs, -⟩ := ps.apply_servers now e
  unfold PoolState.members
  rw [hs]
  exact List.map_modify_eq_map _ _ _ _ fun s => by simp

/-- The servers a pool's checker probes. -/
def PoolState.watched (ps : PoolState) : Option (List Nat) :=
  ps.fr.map fun c => c.backends.map (·.server)

/-- Breakers have no part in the checker. -/
@[simp] theorem PoolState.withBreaker_fr (ps : PoolState) (addr : String)
    (f : Breaker → Bool → Breaker × Bool) : (ps.withBreaker addr f).fr = ps.fr := by
  unfold PoolState.withBreaker
  split
  · rfl
  · split <;> rfl

/-- The checker after an event: the counters of one entry may have changed. -/
theorem PoolState.apply_fr (now : Time) (ps : PoolState) (e : PoolEvent) :
    ∃ k f, (ps.apply now e).fr =
        ps.fr.map (fun c => { c with backends := c.backends.modify k f }) ∧
      ∀ bh : BackendHealth, (f bh).server = bh.server :=
  (ps.apply_changedBy now e).fr

/-- A checker probes the same servers after every event. -/
@[simp] theorem PoolState.apply_watched (now : Time) (ps : PoolState) (e : PoolEvent) :
    (ps.apply now e).watched = ps.watched := by
  obtain ⟨k, f, hfr, hf⟩ := ps.apply_fr now e
  unfold PoolState.watched
  rw [hfr]
  cases ps.fr with
  | none => rfl
  | some c =>
    simp only [Option.map_some, Option.some.injEq]
    exact List.map_modify_eq_map _ f k c.backends hf

/-- The settings of a checker survive every event. -/
@[simp] theorem PoolState.apply_cfg (now : Time) (ps : PoolState) (e : PoolEvent) :
    (ps.apply now e).fr.map (·.cfg) = ps.fr.map (·.cfg) := by
  obtain ⟨k, f, hfr, -⟩ := ps.apply_fr now e
  rw [hfr]
  cases ps.fr <;> rfl

/-- The addresses of a pool survive every event. -/
@[simp] theorem PoolState.apply_addresses (now : Time) (ps : PoolState) (e : PoolEvent) :
    (ps.apply now e).servers.map (·.address) = ps.servers.map (·.address) := by
  obtain ⟨i, c, hs, -⟩ := ps.apply_servers now e
  rw [hs]
  exact List.map_modify_eq_map _ _ _ _ fun s => by simp

end HootLb.Runtime
