import HootLb.Spec.PickComplete

/-!
# The connection table of the least-connections balancer

`UpdateBackends` replaces the list of backends and leaves the table of connection
counts as it is. An entry is made by the first `Acquire` of an address and never
removed, so that the table has the addresses of all `Acquire` calls so far. Whether it
has only current ones after an update depends on the calls alone: they must all have
been for addresses of the new list.

## Key results

- `mem_conns_foldl_call`: the addresses of the table after a run
- `tracks_current_iff`: when an update leaves the table as its comment says
-/

namespace HootLb.Balancer

variable {ρ : Type}

/-! ## Runs -/

/-- A least-connections balancer after a call. -/
def LeastConnections.call (lc : LeastConnections ρ) : BalancerCall ρ → LeastConnections ρ
  | .pick .. => lc
  | .acquire addr => lc.acquire addr
  | .release addr => lc.release addr
  | .updateBackends bs => lc.updateBackends bs

theorem LoadBalancer.call_leastConnections (server : ρ → Server) (lc : LeastConnections ρ)
    (k : BalancerCall ρ) :
    (LoadBalancer.leastConnections lc).call server k = .leastConnections (lc.call k) := by
  cases k <;> rfl

/-- The address of an `Acquire`. -/
def BalancerCall.acquired? : BalancerCall ρ → Option String
  | .acquire addr => some addr
  | _ => none

def BalancerCall.isUpdate : BalancerCall ρ → Bool
  | .updateBackends _ => true
  | _ => false

/-- The addresses of the `Acquire` calls of a run. -/
def acquired (run : List (BalancerCall ρ)) : List String := run.filterMap BalancerCall.acquired?

/-- A new balancer after a run of calls. -/
def LeastConnections.after (backends : List ρ) (run : List (BalancerCall ρ)) :
    LeastConnections ρ :=
  run.foldl LeastConnections.call (newLeastConnections backends)

/-- It is the balancer of a pool with that algorithm, after the same calls. -/
theorem LoadBalancer.foldl_call_leastConnections (server : ρ → Server) (backends : List ρ)
    (run : List (BalancerCall ρ)) :
    run.foldl (LoadBalancer.call server) (newBalancer "least_conn" server backends) =
      .leastConnections (LeastConnections.after backends run) := by
  have hfrom (lc : LeastConnections ρ) :
      run.foldl (LoadBalancer.call server) (.leastConnections lc) =
        .leastConnections (run.foldl LeastConnections.call lc) := by
    induction run generalizing lc with
    | nil => rfl
    | cons k run ih => rw [List.foldl_cons, call_leastConnections, ih, List.foldl_cons]
  exact hfrom (newLeastConnections backends)

/-! ## The addresses of the table -/

theorem LeastConnections.mem_of_count_pos {lc : LeastConnections ρ} {addr : String}
    (h : 0 < lc.count addr) : addr ∈ lc.conns := by
  rw [← AList.lookup_isSome]
  unfold LeastConnections.count at h
  cases hlookup : lc.conns.lookup addr with
  | some n => rfl
  | none =>
    rw [hlookup] at h
    exact absurd h (by decide)

theorem LeastConnections.count_of_not_mem {lc : LeastConnections ρ} {addr : String}
    (h : addr ∉ lc.conns) : lc.count addr = 0 := by
  by_contra hne
  exact h (mem_of_count_pos (Nat.pos_of_ne_zero hne))

/-- Only an `Acquire` makes an entry, and no call removes one. -/
theorem LeastConnections.mem_conns_call (lc : LeastConnections ρ) (k : BalancerCall ρ)
    (addr : String) :
    addr ∈ (lc.call k).conns ↔ addr ∈ lc.conns ∨ k.acquired? = some addr := by
  cases k with
  | pick | updateBackends => simp [call, updateBackends, BalancerCall.acquired?]
  | acquire other =>
    show addr ∈ lc.conns.insert other _ ↔ _
    rw [AList.mem_insert, or_comm]
    simp [BalancerCall.acquired?, eq_comm]
  | release other =>
    simp only [call, release, BalancerCall.acquired?, reduceCtorEq, or_false]
    split
    · -- the entry was there, or its count would not be positive
      rename_i hpos
      rw [AList.mem_insert, or_iff_right_iff_imp]
      intro heq
      rw [heq]
      exact mem_of_count_pos hpos
    · rfl

theorem LeastConnections.mem_conns_foldl_call (lc : LeastConnections ρ)
    (run : List (BalancerCall ρ)) (addr : String) :
    addr ∈ (run.foldl call lc).conns ↔ addr ∈ lc.conns ∨ addr ∈ acquired run := by
  induction run generalizing lc with
  | nil => simp [acquired]
  | cons k run ih =>
    rw [List.foldl_cons, ih, mem_conns_call, or_assoc]
    unfold acquired
    rw [List.mem_filterMap, List.mem_filterMap, List.exists_mem_cons_iff]

/-- The table has the addresses of all `Acquire` calls. -/
theorem LeastConnections.mem_conns_after (backends : List ρ) (run : List (BalancerCall ρ))
    (addr : String) : addr ∈ (after backends run).conns ↔ addr ∈ acquired run := by
  rw [after, mem_conns_foldl_call, or_iff_right]
  exact AList.notMem_empty addr

/-! ## Updates -/

/-- What the comment on `UpdateBackends` comes to: after an update the table has only
    addresses of the new list, and the counts of those that stay; an address that leaves
    the list counts from zero when it comes back; and until the next update the table
    has no more entries than there are addresses in the list and acquired since. -/
structure TracksCurrent (server : ρ → Server) (backends : List ρ) (past : List (BalancerCall ρ))
    (bs : List ρ) : Prop where
  only : ∀ addr ∈ (LeastConnections.after backends (past ++ [.updateBackends bs])).conns,
    addr ∈ bs.map fun b => (server b).address
  keeps : ∀ addr,
    addr ∈ (LeastConnections.after backends past).backends.map (fun b => (server b).address) →
    addr ∈ bs.map (fun b => (server b).address) →
      (LeastConnections.after backends (past ++ [.updateBackends bs])).count addr =
        (LeastConnections.after backends past).count addr
  fresh : ∀ addr,
    addr ∈ (LeastConnections.after backends past).backends.map (fun b => (server b).address) →
    addr ∉ bs.map (fun b => (server b).address) → ∀ since, addr ∉ acquired since →
      (LeastConnections.after backends (past ++ .updateBackends bs :: since)).count addr = 0
  bounded : ∀ since : List (BalancerCall ρ), (∀ k ∈ since, k.isUpdate = false) →
    (LeastConnections.after backends (past ++ .updateBackends bs :: since)).conns.keys.length ≤
      (bs.map fun b => (server b).address).dedup.length + (acquired since).dedup.length

/-- After any run of calls, an update leaves the table with current backends only exactly
    if all connections so far were to backends of the new list. -/
theorem tracks_current_iff (server : ρ → Server) (backends : List ρ)
    (past : List (BalancerCall ρ)) (bs : List ρ) :
    TracksCurrent server backends past bs ↔
      ∀ addr ∈ acquired past, addr ∈ bs.map fun b => (server b).address := by
  have hmem (since : List (BalancerCall ρ)) (addr : String) :
      addr ∈ (LeastConnections.after backends (past ++ .updateBackends bs :: since)).conns ↔
        addr ∈ acquired past ∨ addr ∈ acquired since := by
    rw [LeastConnections.mem_conns_after]
    simp [acquired, BalancerCall.acquired?]
  constructor
  · intro h addr haddr
    exact h.only addr ((hmem [] addr).mpr (.inl haddr))
  · intro h
    refine ⟨?_, ?_, ?_, ?_⟩
    · intro addr haddr
      rcases (hmem [] addr).mp haddr with hpast | hnone
      · exact h addr hpast
      · cases hnone
    · intro addr _ _
      simp only [LeastConnections.after, List.foldl_append]
      rfl
    · intro addr _ hgone since hsince
      apply LeastConnections.count_of_not_mem
      rw [hmem, not_or]
      exact ⟨fun hpast => hgone (h addr hpast), hsince⟩
    · intro since _
      rw [← List.length_append]
      refine ((AList.keys_nodup _).subperm fun addr haddr => ?_).length_le
      rw [List.mem_append, List.mem_dedup, List.mem_dedup]
      exact ((hmem since addr).mp haddr).imp_left (h addr)

/-- A connection to a backend that is removed while it is open. -/
theorem removed_backend_keeps_count :
    let a := newServer "10.0.0.1:80" 1
    let b := newServer "10.0.0.2:80" 1
    let past : List (BalancerCall Server) := [.acquire "10.0.0.1:80"]
    ¬ TracksCurrent id [a, b] past [b] ∧
      "10.0.0.1:80" ∈ (LeastConnections.after [a, b] (past ++ [.updateBackends [b]])).conns ∧
      (LeastConnections.after [a, b]
        (past ++ [.updateBackends [b], .updateBackends [a, b]])).count "10.0.0.1:80" = 1 := by
  have hentry : "10.0.0.1:80" ∈ (LeastConnections.after
      [newServer "10.0.0.1:80" 1, newServer "10.0.0.2:80" 1]
      [.acquire "10.0.0.1:80", .updateBackends [newServer "10.0.0.2:80" 1]]).conns := by
    decide
  refine ⟨?_, hentry, by decide⟩
  intro h
  exact absurd (h.only _ hentry) (by decide)

end HootLb.Balancer
