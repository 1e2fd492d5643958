import HootLb.ForStd.List
import HootLb.ForStd.RefMap
import HootLb.Native.Snapshot

/-!
# What a snapshot shows

Two snapshots made at different times hold different pointers even when nothing
distinguishes what they point at. `Snapshot.view` follows the pointers: it is the
abstract content of a snapshot, independent of where its objects live. The
contents of certificate stores are left out, because a reload replaces them
inside the stores the listeners already hold and not by swapping snapshots.

`BuildSnapshot` and `UpdatePoolBackends` are then functions on views: what they
produce depends on the configuration, on the outside answers and on the view of
the snapshot they start from, not on the heap.

## Key results

- `updatePoolBackends_view`: a partial update acts on views as `View.updatePool`
- `buildSnapshot_ok`, `buildSnapshot_error`: a full build shows `View.build`, and
  whether it succeeds does not depend on the heap
-/

namespace HootLb.Runtime

open Balancer Circuitbreaker Config

/-- The content of a snapshot with its pointers followed. `checkers` gives the
    pool state a registered checker belongs to. -/
@[ext] structure View where
  pools : String → Option PoolState
  checkers : String → Option PoolState
  listeners : List ListenerFingerprint
  certStores : String → Bool

def Snapshot.view (snap : Snapshot) (heap : Heap) : View :=
  { pools := RefMap.deref snap.poolStates heap.pools
    checkers := RefMap.deref snap.checkers heap.pools
    listeners := snap.listeners
    certStores := fun name => (snap.certStores.lookup name).isSome }

/-- A snapshot whose pointers are valid and whose pools are separate objects. -/
structure Snapshot.WF (snap : Snapshot) (heap : Heap) : Prop where
  pools : RefMap.Valid snap.poolStates heap.pools
  checkers : RefMap.Valid snap.checkers heap.pools
  certs : RefMap.Valid snap.certStores heap.certs
  distinct : RefMap.Injective snap.poolStates

/-- The heap after some allocations. -/
structure Heap.Grows (heap heap' : Heap) : Prop where
  pools : ∃ extra, heap'.pools = heap.pools ++ extra
  certs : heap.certs.length ≤ heap'.certs.length

namespace Heap.Grows

theorem refl (heap : Heap) : heap.Grows heap := ⟨⟨[], by simp⟩, Nat.le_refl _⟩

theorem trans {h₁ h₂ h₃ : Heap} (a : h₁.Grows h₂) (b : h₂.Grows h₃) : h₁.Grows h₃ := by
  obtain ⟨x, hx⟩ := a.pools
  obtain ⟨y, hy⟩ := b.pools
  exact ⟨⟨x ++ y, by rw [hy, hx, List.append_assoc]⟩, Nat.le_trans a.certs b.certs⟩

end Heap.Grows

namespace Snapshot.WF

variable {snap : Snapshot} {heap heap' : Heap}

/-- Allocation leaves existing snapshots well formed. -/
theorem grow (h : snap.WF heap) (hg : heap.Grows heap') : snap.WF heap' := by
  obtain ⟨extra, hextra⟩ := hg.pools
  refine ⟨?_, ?_, fun k r hk => Nat.lt_of_lt_of_le (h.certs k r hk) hg.certs, h.distinct⟩
  · rw [hextra]; exact h.pools.append extra
  · rw [hextra]; exact h.checkers.append extra

/-- Allocation does not change what existing snapshots show. -/
theorem view_grow (h : snap.WF heap) (hg : heap.Grows heap') :
    snap.view heap' = snap.view heap := by
  obtain ⟨extra, hextra⟩ := hg.pools
  unfold Snapshot.view
  rw [hextra, h.pools.deref_append, h.checkers.deref_append]

end Snapshot.WF

/-- The members of a freshly made pool. -/
@[simp] theorem updatedPoolState_members (cfg : PoolConfig) (bs : List Backend) :
    (updatedPoolState cfg bs).members = bs := by
  simp only [PoolState.members, updatedPoolState, newServers, List.map_map]
  exact List.map_id bs

@[simp] theorem buildPoolState_members (cfg : PoolConfig) (bs : List Backend) :
    (buildPoolState cfg bs).members = bs := by
  simp only [PoolState.members, buildPoolState, newServers, List.map_map]
  exact List.map_id bs

/-! ## Partial update -/

/-- Replace one pool. A checker entry stays when the new pool has no checker. -/
def View.updatePool (v : View) (poolName : String) (newBackends : List Backend)
    (cfg : PoolConfig) : View :=
  let ps := updatedPoolState cfg newBackends
  { v with
    pools := Function.update v.pools poolName (some ps)
    checkers :=
      if ps.fr.isSome then Function.update v.checkers poolName (some ps) else v.checkers }

/-- `UpdatePoolBackends` acts on views. -/
theorem updatePoolBackends_view (snap : Snapshot) (heap : Heap) (poolName : String)
    (newBackends : List Backend) (cfg : PoolConfig) (h : snap.WF heap) :
    (updatePoolBackends snap poolName newBackends cfg heap).1.view
        (updatePoolBackends snap poolName newBackends cfg heap).2 =
      (snap.view heap).updatePool poolName newBackends cfg := by
  have hpools := h.pools.deref_alloc poolName (updatedPoolState cfg newBackends)
  have hchk := h.checkers.deref_alloc poolName (updatedPoolState cfg newBackends)
  have hkeep := h.checkers.deref_append [updatedPoolState cfg newBackends]
  unfold updatePoolBackends View.updatePool Snapshot.view
  -- with a checker both maps point at the new object, without one only the pools do
  by_cases hfr : (updatedPoolState cfg newBackends).fr.isSome
  · simp only [hfr, if_true, hpools, hchk]
  · simp only [hfr, Bool.false_eq_true, if_false, hpools, hkeep]

theorem updatePoolBackends_grows (snap : Snapshot) (heap : Heap) (poolName : String)
    (newBackends : List Backend) (cfg : PoolConfig) :
    heap.Grows (updatePoolBackends snap poolName newBackends cfg heap).2 :=
  ⟨⟨_, rfl⟩, Nat.le_refl _⟩

theorem updatePoolBackends_wf (snap : Snapshot) (heap : Heap) (poolName : String)
    (newBackends : List Backend) (cfg : PoolConfig) (h : snap.WF heap) :
    (updatePoolBackends snap poolName newBackends cfg heap).1.WF
      (updatePoolBackends snap poolName newBackends cfg heap).2 := by
  unfold updatePoolBackends
  refine ⟨h.pools.alloc poolName _, ?_, h.certs, h.distinct.alloc h.pools poolName⟩
  dsimp only
  split
  · exact h.checkers.alloc poolName _
  · exact h.checkers.append _

/-! ## Full build -/

/-- The pool state a build makes for a pool. -/
def built (env : BuildEnv) (p : PoolConfig) : PoolState := buildPoolState p (poolBackends env p)

/-- The entries of a build: of several pools with one name the last one counts. -/
def builtPools (env : BuildEnv) (cfgs : List PoolConfig) (name : String) : Option PoolState :=
  (cfgs.reverse.find? fun p => p.name = name).map (built env)

/-- The pools of a build that have a checker. -/
def builtCheckers (env : BuildEnv) (cfgs : List PoolConfig) (name : String) : Option PoolState :=
  (cfgs.reverse.find? fun p => p.name = name ∧ (built env p).fr.isSome).map (built env)

/-- What a successful build shows. -/
def View.build (env : BuildEnv) (cfg : Config) : View :=
  { pools := builtPools env cfg.pools
    checkers := builtCheckers env cfg.pools
    listeners := cfg.listeners.map fingerprint
    certStores := fun name =>
      cfg.listeners.any fun l => l.name = name ∧ (terminateCerts l).isSome }

/-- The pool on which the pool loop stops, if it does. -/
def poolsError (tags : BuildTags) : List PoolConfig → Option BuildError
  | [] => none
  | p :: rest =>
    match (if p.discovery.isSome then newDiscoveryAdapter tags p else .ok ()) with
    | .error e => some (.pool p.name e)
    | .ok () => poolsError tags rest

/-- The key pair that does not load, if there is one. -/
def keyPairError (load : KeyPairLoader) : List TLSCertConfig → Option BuildError
  | [] => none
  | e :: rest =>
    match load e.certFile e.keyFile with
    | .error why => some (.certificate e.host why)
    | .ok _ => keyPairError load rest

/-- The first error of the certificates of the listeners that terminate TLS. -/
def certsError (load : KeyPairLoader) (listeners : List ListenerConfig) : Option BuildError :=
  listeners.findSome? fun l => (terminateCerts l).bind (keyPairError load)

/-- Why a build does not succeed. -/
def buildError (tags : BuildTags) (env : BuildEnv) (cfg : Config) : Option BuildError :=
  match poolsError tags cfg.pools with
  | some e => some e
  | none => certsError env.loadX509KeyPair cfg.listeners

/-- The entries of a build are the configured pools. -/
theorem builtPools_isSome (env : BuildEnv) (cfgs : List PoolConfig) (name : String) :
    (builtPools env cfgs name).isSome ↔ name ∈ cfgs.map (·.name) := by
  simp [builtPools, List.find?_isSome]

/-- With unique names, the entry of a pool is its own state. -/
theorem builtPools_of_mem (env : BuildEnv) (cfgs : List PoolConfig)
    (hnd : (cfgs.map (·.name)).Nodup) (p : PoolConfig) (hp : p ∈ cfgs) :
    builtPools env cfgs p.name = some (built env p) := by
  unfold builtPools
  rw [List.find?_eq_of_unique _ p _ (List.mem_reverse.mpr hp)]
  · simp
  · intro x hx hname
    exact List.inj_on_of_nodup_map hnd (List.mem_reverse.mp hx) hp (by simpa using hname)

/-- With unique names, a pool has a checker entry when it has a checker. -/
theorem builtCheckers_of_mem (env : BuildEnv) (cfgs : List PoolConfig)
    (hnd : (cfgs.map (·.name)).Nodup) (p : PoolConfig) (hp : p ∈ cfgs) :
    builtCheckers env cfgs p.name =
      if (built env p).fr.isSome then some (built env p) else none := by
  unfold builtCheckers
  rw [List.find?_eq_of_unique _ p _ (List.mem_reverse.mpr hp)]
  · cases hfr : (built env p).fr.isSome <;> simp
  · intro x hx hname
    simp only [decide_eq_true_eq] at hname
    exact List.inj_on_of_nodup_map hnd (List.mem_reverse.mp hx) hp hname.1

/-- Names that are not configured have no checker entry. -/
theorem builtCheckers_of_not_mem (env : BuildEnv) (cfgs : List PoolConfig) (name : String)
    (h : name ∉ cfgs.map (·.name)) : builtCheckers env cfgs name = none := by
  unfold builtCheckers
  rw [Option.map_eq_none_iff, List.find?_eq_none]
  intro p hp hname
  simp only [decide_eq_true_eq] at hname
  exact h (List.mem_map.mpr ⟨p, List.mem_reverse.mp hp, hname.1⟩)

private theorem builtPools_cons (env : BuildEnv) (p : PoolConfig) (rest : List PoolConfig)
    (f : String → Option PoolState) (n : String) :
    (builtPools env (p :: rest) n <|> f n) =
      (builtPools env rest n <|> Function.update f p.name (some (built env p)) n) := by
  unfold builtPools
  rw [List.find?_reverse_cons]
  cases rest.reverse.find? fun p => p.name = n with
  | some q => rfl
  | none =>
    by_cases hn : p.name = n
    · subst hn; simp
    · simp [hn, Function.update_of_ne (Ne.symm hn)]

private theorem builtCheckers_cons (env : BuildEnv) (p : PoolConfig) (rest : List PoolConfig)
    (f : String → Option PoolState) (n : String) :
    (builtCheckers env (p :: rest) n <|> f n) =
      (builtCheckers env rest n <|>
        (if (built env p).fr.isSome then Function.update f p.name (some (built env p))
          else f) n) := by
  unfold builtCheckers
  rw [List.find?_reverse_cons]
  cases rest.reverse.find? fun q => q.name = n ∧ (built env q).fr.isSome with
  | some q => rfl
  | none =>
    cases hfr : (built env p).fr.isSome with
    | false => simp
    | true =>
      by_cases hn : p.name = n
      · subst hn; simp
      · simp [hn, Function.update_of_ne (Ne.symm hn)]

/-- The pool loop fails with `poolsError`. -/
private theorem buildPools_error (tags : BuildTags) (env : BuildEnv) (cfgs : List PoolConfig)
    (heap : List PoolState) (pools checkers : GoMap PoolRef) (e : BuildError)
    (he : poolsError tags cfgs = some e) :
    buildPools tags env cfgs heap pools checkers = .error e := by
  induction cfgs generalizing heap pools checkers with
  | nil => exact nomatch he
  | cons p rest ih =>
    simp only [poolsError] at he
    simp only [buildPools]
    -- both look at the same check
    generalize (if p.discovery.isSome then newDiscoveryAdapter tags p else .ok ()) = check at he ⊢
    cases check with
    | error why =>
      cases he
      rfl
    | ok _ => exact ih _ _ _ he

/-- Without an error the pool loop binds every name to the last pool of that
    name, and leaves the names that do not occur as they were. -/
private theorem buildPools_ok (tags : BuildTags) (env : BuildEnv) (cfgs : List PoolConfig)
    (heap : List PoolState) (pools checkers : GoMap PoolRef)
    (he : poolsError tags cfgs = none) (hp : RefMap.Valid pools heap)
    (hc : RefMap.Valid checkers heap) (hinj : RefMap.Injective pools) :
    ∃ heap' pools' checkers',
      buildPools tags env cfgs heap pools checkers = .ok (heap', pools', checkers') ∧
      (∃ extra, heap' = heap ++ extra) ∧
      RefMap.Valid pools' heap' ∧ RefMap.Valid checkers' heap' ∧ RefMap.Injective pools' ∧
      (∀ n, RefMap.deref pools' heap' n =
        (builtPools env cfgs n <|> RefMap.deref pools heap n)) ∧
      (∀ n, RefMap.deref checkers' heap' n =
        (builtCheckers env cfgs n <|> RefMap.deref checkers heap n)) := by
  induction cfgs generalizing heap pools checkers with
  | nil =>
    exact ⟨heap, pools, checkers, rfl, ⟨[], by simp⟩, hp, hc, hinj, fun _ => rfl, fun _ => rfl⟩
  | cons p rest ih =>
    simp only [poolsError] at he
    simp only [buildPools]
    generalize (if p.discovery.isSome then newDiscoveryAdapter tags p else .ok ()) = check at he ⊢
    cases check with
    | error why => cases he
    | ok _ =>
      dsimp only
      have hc' : RefMap.Valid
          (if (built env p).fr.isSome then checkers.insert p.name heap.length else checkers)
          (heap ++ [built env p]) := by
        split
        · exact hc.alloc p.name _
        · exact hc.append _
      -- the rest of the loop runs on the heap with this pool at its end
      obtain ⟨heap', pools', checkers', hrun, ⟨extra, hextra⟩, hp', hc'', hinj', hdp, hdc⟩ :=
        ih (heap ++ [built env p]) (pools.insert p.name heap.length) _ he (hp.alloc p.name _) hc'
          (hinj.alloc hp p.name)
      refine ⟨heap', pools', checkers', hrun, ⟨built env p :: extra, by simp [hextra]⟩, hp', hc'',
        hinj', ?_, ?_⟩
      · intro n
        rw [hdp n, hp.deref_alloc, builtPools_cons]
      · intro n
        rw [hdc n, builtCheckers_cons]
        split
        · rw [hc.deref_alloc]
        · rw [hc.deref_append]

/-- Loading certificates fails with `keyPairError`. -/
theorem loadCertificates_eq (load : KeyPairLoader) (entries : List TLSCertConfig)
    (m : GoMap Certificate) :
    match keyPairError load entries with
    | some e => loadCertificates load entries m = .error e
    | none => ∃ m', loadCertificates load entries m = .ok m' := by
  induction entries generalizing m with
  | nil => exact ⟨m, rfl⟩
  | cons x rest ih =>
    simp only [keyPairError, loadCertificates]
    cases load x.certFile x.keyFile with
    | error why => rfl
    | ok cert => exact ih _

private theorem certsError_cons (load : KeyPairLoader) (l : ListenerConfig)
    (rest : List ListenerConfig) :
    certsError load (l :: rest) =
      match (terminateCerts l).bind (keyPairError load) with
      | some e => some e
      | none => certsError load rest := by
  simp only [certsError, List.findSome?_cons]
  cases (terminateCerts l).bind (keyPairError load) <;> rfl

/-- The listener loop fails with `certsError`. -/
private theorem buildCertStores_error (env : BuildEnv) (ls : List ListenerConfig)
    (certs : List (GoMap Certificate)) (stores : GoMap CertRef) (e : BuildError)
    (he : certsError env.loadX509KeyPair ls = some e) :
    buildCertStores env ls certs stores = .error e := by
  induction ls generalizing certs stores with
  | nil => exact nomatch he
  | cons l rest ih =>
    rw [certsError_cons] at he
    simp only [buildCertStores]
    cases hl : terminateCerts l with
    | none =>
      rw [hl] at he
      exact ih _ _ he
    | some entries =>
      rw [hl, Option.bind_some] at he
      have hload := loadCertificates_eq env.loadX509KeyPair entries ∅
      cases hk : keyPairError env.loadX509KeyPair entries with
      | some e' =>
        rw [hk] at hload he
        simp only [hload]
        exact congrArg Except.error (Option.some.inj he)
      | none =>
        rw [hk] at hload he
        obtain ⟨m, hm⟩ := hload
        simp only [hm]
        exact ih _ _ he

/-- Without an error the listener loop makes one store for every listener that
    terminates TLS. -/
private theorem buildCertStores_ok (env : BuildEnv) (ls : List ListenerConfig)
    (certs : List (GoMap Certificate)) (stores : GoMap CertRef)
    (he : certsError env.loadX509KeyPair ls = none) (hv : RefMap.Valid stores certs) :
    ∃ certs' stores', buildCertStores env ls certs stores = .ok (certs', stores') ∧
      certs.length ≤ certs'.length ∧ RefMap.Valid stores' certs' ∧
      ∀ n, (stores'.lookup n).isSome =
        ((ls.any fun l => l.name = n ∧ (terminateCerts l).isSome) || (stores.lookup n).isSome) := by
  induction ls generalizing certs stores with
  | nil => exact ⟨certs, stores, rfl, Nat.le_refl _, hv, fun _ => rfl⟩
  | cons l rest ih =>
    rw [certsError_cons] at he
    simp only [buildCertStores]
    cases hl : terminateCerts l with
    | none =>
      rw [hl] at he
      obtain ⟨certs', stores', hrun, hlen, hv', hdom⟩ := ih certs stores he hv
      refine ⟨certs', stores', hrun, hlen, hv', fun n => ?_⟩
      rw [hdom n]
      simp [hl]
    | some entries =>
      rw [hl, Option.bind_some] at he
      have hload := loadCertificates_eq env.loadX509KeyPair entries ∅
      cases hk : keyPairError env.loadX509KeyPair entries with
      | some e' => rw [hk] at he; exact nomatch he
      | none =>
        rw [hk] at hload he
        obtain ⟨m, hm⟩ := hload
        simp only [hm]
        obtain ⟨certs', stores', hrun, hlen, hv', hdom⟩ :=
          ih (certs ++ [m]) (stores.insert l.name certs.length) he (hv.alloc l.name m)
        refine ⟨certs', stores', hrun, ?_, hv', fun n => ?_⟩
        · rw [List.length_append] at hlen
          omega
        · rw [hdom n, RefMap.lookup_insert_eq]
          by_cases hn : n = l.name
          · simp [hn, hl]
          · simp [hn, Ne.symm hn]

/-- When the build has an error, it reports that error whatever the heap. -/
theorem buildSnapshot_error (tags : BuildTags) (env : BuildEnv) (cfg : Config) (heap : Heap)
    (e : BuildError) (he : buildError tags env cfg = some e) :
    buildSnapshot tags env cfg heap = .error e := by
  unfold buildError at he
  unfold buildSnapshot
  cases hp : poolsError tags cfg.pools with
  | some e' =>
    rw [hp] at he
    cases he
    rw [buildPools_error tags env cfg.pools _ _ _ e hp]
  | none =>
    rw [hp] at he
    obtain ⟨pools, refs, checkers, hrun, -⟩ :=
      buildPools_ok tags env cfg.pools heap.pools ∅ ∅ hp (RefMap.valid_empty _)
        (RefMap.valid_empty _) RefMap.injective_empty
    simp only [hrun, buildCertStores_error env cfg.listeners _ _ e he]

/-- When the build has no error, it makes a well-formed snapshot that shows
    `View.build`, whatever the heap. -/
theorem buildSnapshot_ok (tags : BuildTags) (env : BuildEnv) (cfg : Config) (heap : Heap)
    (he : buildError tags env cfg = none) :
    ∃ snap heap', buildSnapshot tags env cfg heap = .ok (snap, heap') ∧
      snap.view heap' = View.build env cfg ∧ snap.WF heap' ∧ heap.Grows heap' := by
  unfold buildError at he
  cases hp : poolsError tags cfg.pools with
  | some e' => rw [hp] at he; exact nomatch he
  | none =>
    rw [hp] at he
    obtain ⟨pools, refs, checkers, hrun, hgrow, hvp, hvc, hinj, hdp, hdc⟩ :=
      buildPools_ok tags env cfg.pools heap.pools ∅ ∅ hp (RefMap.valid_empty _)
        (RefMap.valid_empty _) RefMap.injective_empty
    obtain ⟨certs, stores, hcerts, hlen, hvs, hdom⟩ :=
      buildCertStores_ok env cfg.listeners heap.certs ∅ he (RefMap.valid_empty _)
    refine ⟨{ poolStates := refs, certStores := stores
              listeners := cfg.listeners.map fingerprint, checkers := checkers },
      { pools := pools, certs := certs }, ?_, ?_, ⟨hvp, hvc, hvs, hinj⟩, ⟨hgrow, hlen⟩⟩
    · simp only [buildSnapshot, hrun, hcerts]
    · -- nothing was bound before the loops
      have hempty : ∀ n, RefMap.deref (∅ : GoMap PoolRef) heap.pools n = none := fun _ => rfl
      apply View.ext
      · funext n; simp [Snapshot.view, View.build, hdp n, hempty n]
      · funext n; simp [Snapshot.view, View.build, hdc n, hempty n]
      · rfl
      · funext n; simp [Snapshot.view, View.build, hdom n]

/-- What is known of a snapshot that a build returned. -/
theorem buildSnapshot_spec (tags : BuildTags) (env : BuildEnv) (cfg : Config)
    (heap heap' : Heap) (snap : Snapshot)
    (h : buildSnapshot tags env cfg heap = .ok (snap, heap')) :
    snap.view heap' = View.build env cfg ∧ snap.WF heap' ∧ heap.Grows heap' := by
  cases hb : buildError tags env cfg with
  | some e => rw [buildSnapshot_error _ _ _ _ e hb] at h; exact nomatch h
  | none =>
    obtain ⟨snap', heap'', hrun, hview, hwf, hgrow⟩ := buildSnapshot_ok tags env cfg heap hb
    rw [hrun] at h
    cases h
    exact ⟨hview, hwf, hgrow⟩

end HootLb.Runtime
