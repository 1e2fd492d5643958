import HootLb.Spec.StoreView
import HootLb.Spec.PoolEvents

/-!
# Discovery-driven pools over time

A poller acts when the resolved addresses differ from those it remembers; a
reload resolves on its own, takes a failure for an empty list, and tells the
poller nothing. Both write to the same pool. This module determines in which runs
the pool follows the resolved sets.

## Key results

- `backendSetsEqual_iff`: the poller compares addresses with multiplicity
- `System.pollKept_iff`, `System.reloadKept_iff`: one poll, one reload
- `discovery_kept_iff`: a whole run
-/

namespace HootLb.Runtime

open Config

/-! ## The comparison -/

private theorem addrCount_insert (m : GoMap Nat) (addr a : String) (n : Nat) :
    addrCount (m.insert addr n) a = if a = addr then n else addrCount m a := by
  unfold addrCount
  by_cases h : a = addr
  · subst h; rw [AList.lookup_insert, if_pos rfl]; rfl
  · rw [AList.lookup_insert_ne h, if_neg h]

/-- The first loop counts the addresses. -/
private theorem addrCount_foldl (bs : List Backend) (m : GoMap Nat) (a : String) :
    addrCount (bs.foldl (fun m be => m.insert be.address (addrCount m be.address + 1)) m) a =
      addrCount m a + (bs.map (·.address)).count a := by
  induction bs generalizing m with
  | nil => simp
  | cons b rest ih =>
    rw [List.foldl_cons, ih, addrCount_insert, List.map_cons, List.count_cons]
    by_cases h : a = b.address
    · subst h; simp; omega
    · simp [h, Ne.symm h]

/-- The second loop succeeds when no address occurs more often than counted. -/
private theorem consumeAddrs_iff (bs : List Backend) (m : GoMap Nat) :
    consumeAddrs m bs = true ↔ ∀ a, (bs.map (·.address)).count a ≤ addrCount m a := by
  induction bs generalizing m with
  | nil => simp [consumeAddrs]
  | cons b rest ih =>
    have hcount : ∀ a, ((b :: rest).map (·.address)).count a =
        (rest.map (·.address)).count a + if a = b.address then 1 else 0 := by
      intro a
      rw [List.map_cons, List.count_cons]
      by_cases h : a = b.address
      · simp [h]
      · simp [h, Ne.symm h]
    unfold consumeAddrs
    split
    · rename_i hzero
      simp only [Bool.false_eq_true, false_iff, not_forall, Nat.not_le]
      exact ⟨b.address, by rw [hcount, hzero]; simp⟩
    · rename_i hpos
      rw [ih]
      refine forall_congr' fun a => ?_
      rw [addrCount_insert, hcount]
      by_cases h : a = b.address
      · subst h; simp; omega
      · simp [h]

/-- `backendSetsEqual` holds exactly when the address lists are permutations of
    each other; weights play no role. -/
theorem backendSetsEqual_iff (a b : List Backend) :
    backendSetsEqual a b = true ↔ (a.map (·.address)).Perm (b.map (·.address)) := by
  unfold backendSetsEqual
  by_cases hlen : a.length = b.length
  · simp only [ne_eq, hlen, not_true_eq_false, if_false]
    have hempty : ∀ x, addrCount (∅ : GoMap Nat) x = 0 := fun _ => rfl
    simp only [consumeAddrs_iff, addrCount_foldl, hempty, Nat.zero_add]
    constructor
    · intro hle
      have hsub : (b.map (·.address)).Subperm (a.map (·.address)) :=
        List.subperm_ext_iff.mpr fun x _ => hle x
      exact (hsub.perm_of_length_le (by simp [hlen])).symm
    · intro hperm x
      exact Nat.le_of_eq (hperm.count_eq x).symm
  · simp only [ne_eq, hlen, not_false_eq_true, if_true, Bool.false_eq_true, false_iff]
    intro hperm
    exact hlen (by simpa using hperm.length_eq)

end HootLb.Runtime

namespace HootLb

open Config HootLb.Runtime HootLb.Reload HootLb.Admin

/-- The backend set of a pool in the current snapshot; a pool that is not there
    has none. -/
def System.backendSet (s : System) (poolName : String) : List Backend :=
  ((s.store.pool? poolName).map PoolState.members).getD []

/-- What an operation owes a discovery-driven pool. A failing `Resolve`, in a poll
    or in an accepted reload, leaves the backend set as it was; after a poll that
    resolved `R` the servers are exactly `R`. -/
def System.DiscoveryKept (poolName : String) (s : System) : Op → Prop
  | .poll k (.error why) => ∀ p, s.pollers[k]? = some p → p.poolName = poolName →
      ((s.step (.poll k (.error why))).backendSet poolName).Perm (s.backendSet poolName)
  | .poll k (.ok R) => ∀ p, s.pollers[k]? = some p → p.poolName = poolName →
      ∃ ps, (s.step (.poll k (.ok R))).store.pool? poolName = some ps ∧ ps.members.Perm R
  | .reload env => ∀ C p why, s.watcher.host.load env.file = .ok C →
      (s.watcher.checkAndReload env s.store).1 = none → p ∈ C.pools → p.name = poolName →
      p.discovery.isSome → env.build.resolve poolName = .error why →
      ((s.step (.reload env)).backendSet poolName).Perm (s.backendSet poolName)
  | _ => True

/-- The state before the operation leaves no room for a slip: a poll that resolves
    the remembered addresses finds the pool holding what it resolved, and an
    accepted reload whose `Resolve` fails finds the pool empty. -/
def System.InStep (poolName : String) (s : System) : Op → Prop
  | .poll k (.ok R) => ∀ p, s.pollers[k]? = some p → p.poolName = poolName →
      (p.lastBackends.map (·.address)).Perm (R.map (·.address)) →
      ∃ ps, s.store.pool? poolName = some ps ∧ ps.members.Perm R
  | .reload env => ∀ C p why, s.watcher.host.load env.file = .ok C →
      s.watcher.reloadError env s.store.current.listeners = none → p ∈ C.pools →
      p.name = poolName → p.discovery.isSome → env.build.resolve poolName = .error why →
      s.backendSet poolName = []
  | _ => True

/-- A poll, seen from the pool. -/
private theorem poll_pool? (s : System) (hwf : s.store.WF) (k : Nat)
    (resolved : Except String (List Backend)) (p : Poller) (hp : s.pollers[k]? = some p) :
    (s.step (.poll k resolved)).store.pool? p.poolName =
      match resolved with
      | .error _ => s.store.pool? p.poolName
      | .ok R =>
        if backendSetsEqual p.lastBackends R then s.store.pool? p.poolName
        else some (updatedPoolState p.cfg R) := by
  rw [s.step_store (.poll k resolved) rfl]
  simp only [System.poolUpdate, hp, Poller.pollCheck]
  cases resolved with
  | error why => rfl
  | ok R =>
    dsimp only
    cases backendSetsEqual p.lastBackends R with
    | true => rfl
    | false => exact s.store.updatePool_pool?_self _ _ _ hwf

/-- One poll. -/
private theorem System.pollKept_iff (poolName : String) (s : System) (hwf : s.store.WF) (k : Nat)
    (resolved : Except String (List Backend)) :
    s.DiscoveryKept poolName (.poll k resolved) ↔ s.InStep poolName (.poll k resolved) := by
  cases resolved with
  | error why =>
    -- a failing poll does not touch the snapshot
    refine iff_of_true (fun p hp hname => ?_) trivial
    subst hname
    unfold System.backendSet
    rw [poll_pool? s hwf k (.error why) p hp]
  | ok R =>
    refine forall_congr' fun p => imp_congr_right fun hp => imp_congr_right fun hname => ?_
    subst hname
    rw [poll_pool? s hwf k (.ok R) p hp]
    dsimp only
    rw [← backendSetsEqual_iff]
    cases backendSetsEqual p.lastBackends R with
    | true => simp
    | false => simp

/-- One reload. -/
private theorem System.reloadKept_iff (poolName : String) (s : System) (env : ReloadEnv) :
    s.DiscoveryKept poolName (.reload env) ↔ s.InStep poolName (.reload env) := by
  simp only [System.DiscoveryKept, System.InStep, Watcher.checkAndReload_fst]
  refine forall_congr' fun C => forall_congr' fun p => forall_congr' fun why =>
    imp_congr_right fun hload => imp_congr_right fun hacc => imp_congr_right fun hp =>
    imp_congr_right fun hname => imp_congr_right fun hdisc => imp_congr_right fun hres => ?_
  have hafter : (s.step (.reload env)).backendSet poolName = [] := by
    obtain ⟨cfg, hcfg, -, hview, -⟩ := s.watcher.checkAndReload_of_ok env s.store hacc
    rw [hload] at hcfg
    cases hcfg
    have hnd := (s.watcher.host.load_accepted env.file C hload).pool_names_nodup
    have hpool : (s.step (.reload env)).store.pool? poolName = some (built env.build p) := by
      rw [← hname, Store.pool?_eq_view]
      simp only [System.step]
      rw [hview]
      exact builtPools_of_mem env.build C.pools hnd p hp
    obtain ⟨d, hd⟩ := Option.isSome_iff_exists.mp hdisc
    simp only [System.backendSet, hpool, Option.map_some, Option.getD_some, built,
      buildPoolState_members, poolBackends, hd, hname, hres]
  rw [hafter]
  exact List.nil_perm

/-- Discovery over whole runs. From startup on, no failing `Resolve` changes the
    pool and every successful poll leaves exactly what it resolved, precisely in
    the runs whose every poll that resolves the remembered addresses finds the
    resolved servers in the pool, and whose every accepted reload with a failing
    `Resolve` finds the pool empty. -/
theorem discovery_kept_iff (host : Host) (file : Except String Bytes) (env : BuildEnv)
    (now : Circuitbreaker.Time) (s₀ : System) (poolName : String) (run : List Op)
    (hstart : startup host file env now = .ok s₀) :
    List.Along System.step (System.DiscoveryKept poolName) s₀ run ↔
      List.Along System.step (System.InStep poolName) s₀ run := by
  have hwf := (startup_spec host file env now s₀ hstart).2.2.1
  refine List.along_congr System.step _ _ (fun s => s.store.WF) (fun s op h => s.step_wf op h)
    (fun s op h => ?_) s₀ hwf run
  cases op with
  | poll k resolved => exact s.pollKept_iff poolName h k resolved
  | reload env => exact s.reloadKept_iff poolName env
  | addBackend | removeBackend | drainBackend | undrainBackend | event | advance =>
    exact Iff.rfl

/-- A configuration whose only pool asks DNS for its backends. -/
def dnsConfig : Config :=
  { plainConfig with
    pools := [{ Sample.pool "web" "" with
      backends := []
      discovery := some
        { type := "dns", dns := some ⟨"web.internal", 8080, 30000000000⟩
          consul := none, k8s := none, docker := none } }] }

/-- An outage of the name server during a reload empties the pool, and the next
    poll, which resolves what it resolved before, leaves it empty. -/
theorem reload_during_outage_strands_pool :
    ∃ s₀, startup (Sample.host [dnsConfig]) (.ok [0])
        (Sample.env fun _ => .ok [⟨"10.0.0.1:8080", 1⟩]) 0 = .ok s₀ ∧
      s₀.backendSet "web" = [⟨"10.0.0.1:8080", 1⟩] ∧
      (s₀.watcher.checkAndReload (Sample.reloadEnv 0 fun _ => .error "no such host")
        s₀.store).1 = none ∧
      ¬ s₀.DiscoveryKept "web" (.reload (Sample.reloadEnv 0 fun _ => .error "no such host")) ∧
      ¬ (s₀.step (.reload (Sample.reloadEnv 0 fun _ => .error "no such host"))).DiscoveryKept
        "web" (.poll 0 (.ok [⟨"10.0.0.1:8080", 1⟩])) := by
  refine ⟨_, rfl, rfl, rfl, fun h => ?_, fun h => ?_⟩
  · have := h dnsConfig _ "no such host" rfl rfl (List.mem_singleton.mpr rfl) rfl rfl rfl
    exact absurd this.length_eq (by decide)
  · obtain ⟨ps, hps, hperm⟩ := h _ rfl rfl
    cases hps
    exact absurd hperm.length_eq (by decide)

/-- The theorem at a run in which the name server always answers: a poll that sees
    a new server, and one that sees nothing new. -/
theorem polls_without_outage_keep_discovery :
    ∃ s₀, startup (Sample.host [dnsConfig]) (.ok [0])
        (Sample.env fun _ => .ok [⟨"10.0.0.1:8080", 1⟩]) 0 = .ok s₀ ∧
      List.Along System.step (System.DiscoveryKept "web") s₀
        [.poll 0 (.ok [⟨"10.0.0.2:8080", 1⟩]), .poll 0 (.ok [⟨"10.0.0.2:8080", 1⟩])] := by
  refine ⟨_, rfl, (discovery_kept_iff (Sample.host [dnsConfig]) (.ok [0])
    (Sample.env fun _ => .ok [⟨"10.0.0.1:8080", 1⟩]) 0 _ "web" _ rfl).mpr ⟨?_, ?_, trivial⟩⟩
  · intro p hp _ hperm
    cases hp
    exact absurd (hperm.mem_iff.mp List.mem_cons_self) (by decide)
  · intro p hp _ _
    exact ⟨_, rfl, List.Perm.refl _⟩

end HootLb
