import HootLb.Native.TcpConn
import HootLb.Spec.Membership

/-!
# TCP connections and connection counts

A connection is acquired and released on the balancer it was picked on, whatever has
replaced that balancer meanwhile. So every least-connections balancer, the current one and
those of older connections, counts the connections it was given.
-/

namespace HootLb.L4

open Balancer Config HootLb.Runtime

/-- The call has acquired the backend on the pool state and has not released it. -/
def ConnStage.holds (pool : Nat) (addr : String) : ConnStage → Bool
  | holding p a _ => p = pool ∧ a = addr
  | _ => false

/-- The pool state a call has got. -/
def ConnStage.pool? : ConnStage → Option Nat
  | fetched p | picked p _ | holding p _ _ => some p
  | _ => none

/-- What a change adds to the count of an address. -/
def acquired (pool : Nat) (addr : String) : Option (Nat × PoolEvent) → Nat
  | some (p, .acquire a) => if p = pool ∧ a = addr then 1 else 0
  | _ => 0

def released (pool : Nat) (addr : String) : Option (Nat × PoolEvent) → Nat
  | some (p, .release a) => if p = pool ∧ a = addr then 1 else 0
  | _ => 0

/-- A call acquires what it then holds and releases what it held. -/
theorem ConnStage.next_holds (c : ConnStage) (pools : List PoolState) (io : ConnIO) (p : Nat)
    (addr : String) :
    (if (c.next pools io).2.holds p addr then 1 else 0) + released p addr (c.next pools io).1 =
      (if c.holds p addr then 1 else 0) + acquired p addr (c.next pools io).1 := by
  fun_cases ConnStage.next pools io c <;> grind [holds, acquired, released]

theorem ConnStage.pool?_of_holds (c : ConnStage) {p : Nat} {addr : String} (h : c.holds p addr) :
    c.pool? = some p := by
  cases c <;> simp_all [holds, pool?]

theorem ConnStage.next_pool (c : ConnStage) (pools : List PoolState) (io : ConnIO) (p : Nat)
    (h : (c.next pools io).2.pool? = some p) : c.pool? = some p ∨ p = pools.length - 1 := by
  fun_cases ConnStage.next pools io c <;> grind [next, pool?]

/-- What an event does to a least-connections balancer. -/
theorem balancerAfter_count {ps : PoolState} {e : PoolEvent} {lc' : LeastConnections Nat}
    (h : ps.balancerAfter e = .leastConnections lc') :
    ∃ lc, ps.lb = .leastConnections lc ∧ ∀ p addr, lc'.count addr =
      lc.count addr + acquired p addr (some (p, e)) - released p addr (some (p, e)) := by
  cases hlb : ps.lb with
  | leastConnections lc =>
    refine ⟨lc, rfl, fun p addr => ?_⟩
    cases e <;> simp_all [PoolState.balancerAfter, LoadBalancer.pick, LoadBalancer.acquire,
      LoadBalancer.release, acquired, released] <;> subst h <;>
      simp [LeastConnections.count_acquire, LeastConnections.count_release]
  | _ =>
    cases e <;> simp [PoolState.balancerAfter, hlb, LoadBalancer.pick, LoadBalancer.acquire,
      LoadBalancer.release] at h

namespace TcpConns

/-- The balancers count the calls that hold something; calls have pool states that exist. -/
structure Accounted (s : TcpConns) : Prop where
  nonempty : 0 < s.pools.length
  valid : ∀ c ∈ s.conns, ∀ p, c.pool? = some p → p < s.pools.length
  counts : ∀ p ps lc, s.pools[p]? = some ps → ps.lb = .leastConnections lc →
    ∀ addr, lc.count addr = s.conns.countP (·.holds p addr)

variable {s : TcpConns}

@[simp] theorem length_apply (now : Circuitbreaker.Time) (e : Option (Nat × PoolEvent)) :
    (s.apply now e).pools.length = s.pools.length := by
  cases e <;> simp [apply]

/-- A change of a pool state, with calls that hold accordingly. -/
theorem Accounted.change (h : s.Accounted) (now : Circuitbreaker.Time)
    (e : Option (Nat × PoolEvent)) {conns : List ConnStage}
    (hvalid : ∀ c ∈ conns, ∀ p, c.pool? = some p → p < s.pools.length)
    (hcounts : ∀ p addr, conns.countP (·.holds p addr) + released p addr e =
      s.conns.countP (·.holds p addr) + acquired p addr e) :
    { s.apply now e with conns := conns }.Accounted := by
  refine ⟨by simpa using h.nonempty, by simpa using hvalid, fun p ps' lc' hps hlb addr => ?_⟩
  change lc'.count addr = conns.countP _
  have hcount := hcounts p addr
  match e with
  | none => exact (h.counts p ps' lc' hps hlb addr).trans hcount.symm
  | some (q, e) =>
    simp only [apply, List.getElem?_modify] at hps
    obtain ⟨ps, hold, rfl⟩ := Option.map_eq_some_iff.mp hps
    by_cases hq : q = p
    · subst hq
      rw [if_pos rfl, ps.apply_lb] at hlb
      obtain ⟨lc, hlc, hevent⟩ := balancerAfter_count hlb
      rw [hevent q addr, h.counts q ps lc hold hlc addr]
      -- what is released was held, so the subtraction is exact
      omega
    · rw [if_neg hq] at hlb
      have hnone : acquired p addr (some (q, e)) = 0 ∧ released p addr (some (q, e)) = 0 := by
        cases e <;> simp [acquired, released, hq]
      rw [h.counts p ps lc' hold hlb addr]
      omega

/-- A new pool state counts nothing, and no call has got it yet. -/
theorem Accounted.install (h : s.Accounted) {ps : PoolState}
    (hnew : ∀ addr, ps.lb.connCount addr = 0) : { s with pools := s.pools ++ [ps] }.Accounted := by
  refine ⟨by simp, fun c hc p hp => ?_, fun p ps' lc hps hlb addr => ?_⟩
  · have := h.valid c hc p hp
    simp
    omega
  · rw [List.getElem?_append] at hps
    split at hps
    · exact h.counts p ps' lc hps hlb addr
    · obtain rfl := List.mem_singleton.mp (List.mem_of_getElem? hps)
      have hzero : lc.count addr = 0 := by simpa [hlb, LoadBalancer.connCount] using hnew addr
      rw [hzero, eq_comm, List.countP_eq_zero]
      exact fun c hc hholds => absurd (h.valid c hc p (c.pool?_of_holds hholds)) ‹_›

theorem Accounted.step (h : s.Accounted) (a : TcpAction) : (s.step a).Accounted := by
  unfold TcpConns.step
  split
  · exact h
  cases a with
  | accept =>
    refine h.change 0 none ?_ ?_
    · simpa [or_imp, forall_and, ConnStage.pool?] using h.valid
    · simp [ConnStage.holds, acquired, released]
  | proceed conn io =>
    dsimp only
    split
    · exact h
    · rename_i c hc
      refine h.change io.now _ ?_ fun p addr => ?_
      · intro d hd p hp
        obtain hd | rfl := List.mem_or_eq_of_mem_set hd
        · exact h.valid d hd p hp
        -- the pool state it has had, or the current one
        · obtain hp | rfl := c.next_pool s.pools io p hp
          · exact h.valid c (List.mem_of_getElem? hc) p hp
          · exact Nat.sub_lt h.nonempty Nat.one_pos
      · have hset := List.countP_set_add (·.holds p addr) (c.next s.pools io).2 hc
        have hholds := c.next_holds s.pools io p addr
        omega
  | rebuild cfg backends => exact h.install (newBalancer_connCount _ _ _)
  | update cfg backends => exact h.install (newBalancer_connCount _ _ _)
  | probe pool k success => exact h.change 0 (some (pool, .probe k success)) h.valid fun _ _ => rfl
  | setDraining pool addr draining =>
    exact h.change 0 (some (pool, .setDraining addr draining)) h.valid fun _ _ => rfl

/-- In every run of the proxy, with any number of connections and replacements of the pool
    state, every least-connections balancer counts for every address the connections that
    were acquired on it and have not been released. -/
theorem tcp_conns_accounted (cfg : PoolConfig) (backends : List Backend) (run : List TcpAction) :
    let s := run.foldl TcpConns.step (newTcpConns cfg backends)
    ∀ p ps lc, s.pools[p]? = some ps → ps.lb = .leastConnections lc →
      ∀ addr, lc.count addr = s.conns.countP (·.holds p addr) := by
  have hstart : (newTcpConns cfg backends).Accounted :=
    { nonempty := Nat.one_pos
      valid := by simp [newTcpConns]
      counts := fun p ps lc hps hlb addr => by
        obtain rfl := List.mem_singleton.mp (List.mem_of_getElem? hps)
        have hnew : (buildPoolState cfg backends).lb.connCount addr = 0 :=
          newBalancer_connCount _ _ _ _
        rwa [hlb] at hnew }
  exact (List.foldlRecOn (motive := Accounted) run TcpConns.step hstart fun s h a _ =>
    h.step a).counts

/-- A connection that is being dialed. -/
theorem tcp_conns_accounted_dialing :
    let cfg := { Sample.pool "db" "" with algorithm := "least_conn" }
    let run := TcpAction.accept :: List.replicate 4 (.proceed 0 ⟨true, 0, "", true, 0⟩)
    ∃ ps lc, (run.foldl TcpConns.step (newTcpConns cfg [⟨"a:80", 1⟩])).pools[0]? = some ps ∧
      ps.lb = .leastConnections lc ∧ lc.count "a:80" = 1 := by
  intro cfg run
  exact ⟨_, _, rfl, rfl, (tcp_conns_accounted cfg [⟨"a:80", 1⟩] run 0 _ _ rfl rfl "a:80").trans rfl⟩

end TcpConns

end HootLb.L4
