import HootLb.Native.Vectors
import HootLb.Spec.GaugeVectors

/-!
# Which series a cleanup removes

The cleanup after a reload is meant to remove the series of the backends that left
their pool. It looks for the pool and the address of such a backend among the
labels of a series, but not for where they stand. A series of another pool is
removed as well if it mentions both: the name of its listener may be the name of
the pool, and its backend may have the same address.

## Key results

- `mem_leftBackends`: the backends that left
- `lookup_cleanup`: what the cleanup leaves of a vector
- `cleanup_exact_iff`: it removes exactly the dead series if and only if no other
  series mentions a backend that left and its pool
-/

namespace HootLb.Metrics

open HootLb.Runtime

/-! ## The backends that left -/

/-- `addr` is a backend of the pool in the snapshot. -/
def BackendOf (heap : Heap) (s : Snapshot) (pool addr : String) : Prop :=
  ∃ ref ps, s.poolStates.lookup pool = some ref ∧ heap.pools[ref]? = some ps ∧
    addr ∈ ps.servers.map (·.address)

/-- The addresses `ExtractPoolBackends` has for a pool. -/
theorem backendOf_iff (heap : Heap) (s : Snapshot) (pool addr : String) :
    BackendOf heap s pool addr ↔
      ∃ addrs, (pool, addrs) ∈ extractPoolBackends heap s ∧ addr ∈ addrs := by
  constructor
  · intro h
    obtain ⟨ref, ps, href, hps, hmem⟩ := h
    refine ⟨ps.servers.map (·.address), ?_, hmem⟩
    refine List.mem_map.mpr ⟨⟨pool, ref⟩, AList.mem_lookup_iff.mp href, ?_⟩
    rw [hps]
    rfl
  · intro h
    obtain ⟨addrs, hentry, hmem⟩ := h
    obtain ⟨e, he, heq⟩ := List.mem_map.mp hentry
    obtain ⟨rfl, rfl⟩ := Prod.mk.inj heq
    cases hps : heap.pools[e.2]? with
    | none =>
      rw [hps] at hmem
      exact absurd hmem (by simp)
    | some ps =>
      rw [hps] at hmem
      exact ⟨e.2, ps, AList.mem_lookup_iff.mpr he, hps, hmem⟩

/-- A pool has one entry. -/
theorem extractPoolBackends_unique (heap : Heap) (s : Snapshot) {pool : String}
    {addrs addrs' : List String} (h : (pool, addrs) ∈ extractPoolBackends heap s)
    (h' : (pool, addrs') ∈ extractPoolBackends heap s) : addrs = addrs' := by
  obtain ⟨e, he, heq⟩ := List.mem_map.mp h
  obtain ⟨e', he', heq'⟩ := List.mem_map.mp h'
  obtain ⟨hkey, rfl⟩ := Prod.mk.inj heq
  obtain ⟨hkey', rfl⟩ := Prod.mk.inj heq'
  have hlookup : s.poolStates.lookup pool = some e.2 := hkey ▸ AList.mem_lookup_iff.mpr he
  have hlookup' : s.poolStates.lookup pool = some e'.2 := hkey' ▸ AList.mem_lookup_iff.mpr he'
  rw [Option.some_inj.mp (hlookup.symm.trans hlookup')]

/-- The addresses found for a pool, or none if the pool is gone. -/
theorem mem_newAddrs_iff (heap : Heap) (s : Snapshot) (pool addr : String) :
    addr ∈ (((extractPoolBackends heap s).find? fun e => e.1 = pool).map (·.2)).getD [] ↔
      BackendOf heap s pool addr := by
  rw [backendOf_iff]
  cases hfind : (extractPoolBackends heap s).find? fun e => e.1 = pool with
  | none =>
    refine iff_of_false (by simp) ?_
    intro h
    obtain ⟨addrs, hentry, -⟩ := h
    exact absurd (List.find?_eq_none.mp hfind _ hentry) (by simp)
  | some e =>
    have hkey : e.1 = pool := by simpa using List.find?_some hfind
    have hentry : (pool, e.2) ∈ extractPoolBackends heap s :=
      hkey ▸ List.mem_of_find?_eq_some hfind
    constructor
    · exact fun hmem => ⟨e.2, hentry, hmem⟩
    · intro h
      obtain ⟨addrs, hentry', hmem⟩ := h
      rw [extractPoolBackends_unique heap s hentry' hentry] at hmem
      exact hmem

/-- The pairs of a cleanup. -/
def leftBackends (heap : Heap) (oldSnap newSnap : Snapshot) : List (String × String) :=
  removedBackends (extractPoolBackends heap oldSnap) (extractPoolBackends heap newSnap)

/-- The pairs the cleanup goes through are the backends of the old snapshot that the
    new one does not have in the same pool. -/
theorem mem_leftBackends (heap : Heap) (oldSnap newSnap : Snapshot) (pool addr : String) :
    (pool, addr) ∈ leftBackends heap oldSnap newSnap ↔
      BackendOf heap oldSnap pool addr ∧ ¬ BackendOf heap newSnap pool addr := by
  rw [← mem_newAddrs_iff heap newSnap, backendOf_iff heap oldSnap]
  unfold leftBackends removedBackends
  simp only [List.mem_flatMap, List.mem_map, List.mem_filter, Prod.exists, Prod.mk.injEq]
  constructor
  · intro h
    obtain ⟨p, addrs, hentry, a, ⟨hmem, hnew⟩, rfl, rfl⟩ := h
    exact ⟨⟨addrs, hentry, hmem⟩, by simpa using hnew⟩
  · intro h
    obtain ⟨⟨addrs, hentry, hmem⟩, hnew⟩ := h
    exact ⟨pool, addrs, hentry, addr, ⟨hmem, by simpa using hnew⟩, rfl, rfl⟩

/-! ## One vector -/

variable {ν : Type}

/-- The removals of a cleanup on one vector. -/
def Vec.cleanup (removed : List (String × String)) (vec : Vec ν) : Vec ν :=
  removed.foldl (fun vec e => vec.removeByPoolBackend e.1 e.2) vec

@[simp] theorem Vec.labels_cleanup (removed : List (String × String)) (vec : Vec ν) :
    (vec.cleanup removed).labels = vec.labels := by
  induction removed generalizing vec with
  | nil => rfl
  | cons e rest ih => exact ih (vec.removeByPoolBackend e.1 e.2)

theorem Vec.lookup_remove (vec : Vec ν) (pool backend k : String) :
    (vec.removeByPoolBackend pool backend).items.lookup k =
      if namesBoth pool backend k then none else vec.items.lookup k := by
  refine (RefMap.lookup_filterKeys _ vec.items k).trans ?_
  cases namesBoth pool backend k <;> rfl

/-- A cleanup removes the keys that name both parts of one of the pairs. -/
theorem Vec.lookup_cleanup (removed : List (String × String)) (vec : Vec ν) (k : String) :
    (vec.cleanup removed).items.lookup k =
      if removed.any fun e => namesBoth e.1 e.2 k then none else vec.items.lookup k := by
  induction removed generalizing vec with
  | nil => rfl
  | cons e rest ih =>
    rw [show vec.cleanup (e :: rest) = (vec.removeByPoolBackend e.1 e.2).cleanup rest from rfl, ih,
      vec.lookup_remove, List.any_cons]
    cases namesBoth e.1 e.2 k with
    | false => rw [Bool.false_or]; rfl
    | true => rw [Bool.true_or, if_pos rfl, ite_self]

/-- The vector behind a vector with pointers. -/
def GaugeVec.toVec (labels : List String) (gv : GaugeVec) : Vec Int :=
  { labels
    items :=
      { entries := gv.items.entries.map fun e => ⟨e.1, gv.gauges.getD e.2 0⟩
        nodupKeys := by
          have h := gv.items.nodupKeys
          rw [List.NodupKeys, List.keys, List.map_map]
          exact h } }

/-- Both kinds of gauge vector lose the same entries. -/
theorem GaugeVec.toVec_remove (labels : List String) (gv : GaugeVec) (pool backend : String) :
    (gv.removeByPoolBackend pool backend).toVec labels =
      (gv.toVec labels).removeByPoolBackend pool backend := by
  unfold GaugeVec.toVec GaugeVec.removeByPoolBackend Vec.removeByPoolBackend RefMap.filterKeys
  simp only [List.filter_map]
  rfl

/-! ## All vectors -/

/-- The labels of a series make it one of a backend that left. -/
def Dead (heap : Heap) (oldSnap newSnap : Snapshot) (labels values : List String) : Prop :=
  ∃ pool addr, (labels.zip values).lookup "pool" = some pool ∧
    (labels.zip values).lookup "backend" = some addr ∧
    BackendOf heap oldSnap pool addr ∧ ¬ BackendOf heap newSnap pool addr

/-- The series with these values is in the vector. -/
def Vec.Has (vec : Vec ν) (values : List String) : Prop :=
  values.length = vec.labels.length ∧ (vec.items.lookup (key values)).isSome

/-- A cleanup does what it should: the dead series are gone, and all others are as
    they were. -/
def RemovesExactly (dead : List String → List String → Prop) (vecs vecs' : List (Vec ν)) : Prop :=
  List.Forall₂ (fun vec vec' => vec'.labels = vec.labels ∧ ∀ values, vec.Has values →
    (dead vec.labels values → vec'.items.lookup (key values) = none) ∧
    (¬ dead vec.labels values →
      vec'.items.lookup (key values) = vec.items.lookup (key values))) vecs vecs'

/-- Every vector has labels, and no value of a series has a zero byte. -/
def ZeroFree (vecs : List (Vec ν)) : Prop :=
  ∀ vec ∈ vecs, vec.labels ≠ [] ∧
    ∀ values, vec.Has values → ∀ s ∈ values, '\x00' ∉ s.toList

/-- Without zero bytes, the key of a series names what the series mentions. -/
theorem namesBoth_key {values : List String} (hne : values ≠ [])
    (hzero : ∀ s ∈ values, '\x00' ∉ s.toList) (pool backend : String) :
    namesBoth pool backend (key values) = true ↔ pool ∈ values ∧ backend ∈ values := by
  rw [namesBoth, parts_key values hne hzero]
  simp

theorem mem_of_lookup_zip {labels values : List String} {name v : String}
    (h : (labels.zip values).lookup name = some v) : v ∈ values := by
  obtain ⟨before, after, hsplit, -⟩ := List.lookup_eq_some_iff.mp h
  exact (List.of_mem_zip (show (name, v) ∈ labels.zip values by simp [hsplit])).2

/-- A series mentions a backend that left and its pool, at any labels. -/
def Mentions (heap : Heap) (oldSnap newSnap : Snapshot) (values : List String) : Prop :=
  ∃ pool addr, BackendOf heap oldSnap pool addr ∧ ¬ BackendOf heap newSnap pool addr ∧
    pool ∈ values ∧ addr ∈ values

theorem Dead.mentions {heap : Heap} {oldSnap newSnap : Snapshot} {labels values : List String}
    (h : Dead heap oldSnap newSnap labels values) : Mentions heap oldSnap newSnap values := by
  obtain ⟨pool, addr, hpool, haddr, hold, hnew⟩ := h
  exact ⟨pool, addr, hold, hnew, mem_of_lookup_zip hpool, mem_of_lookup_zip haddr⟩

/-- What the loops find in a key is what the series mentions. -/
theorem any_namesBoth_iff (heap : Heap) (oldSnap newSnap : Snapshot) {values : List String}
    (hne : values ≠ []) (hzero : ∀ s ∈ values, '\x00' ∉ s.toList) :
    ((leftBackends heap oldSnap newSnap).any fun e => namesBoth e.1 e.2 (key values)) = true ↔
      Mentions heap oldSnap newSnap values := by
  rw [List.any_eq_true]
  constructor
  · intro h
    obtain ⟨e, he, hnames⟩ := h
    obtain ⟨hold, hnew⟩ := (mem_leftBackends heap oldSnap newSnap e.1 e.2).mp he
    exact ⟨e.1, e.2, hold, hnew, (namesBoth_key hne hzero e.1 e.2).mp hnames⟩
  · intro h
    obtain ⟨pool, addr, hold, hnew, hmem⟩ := h
    exact ⟨(pool, addr), (mem_leftBackends heap oldSnap newSnap pool addr).mpr ⟨hold, hnew⟩,
      (namesBoth_key hne hzero pool addr).mpr hmem⟩

/-- Only the dead series mention a backend that left and its pool. -/
def Unambiguous (heap : Heap) (oldSnap newSnap : Snapshot) (vecs : List (Vec ν)) : Prop :=
  ∀ vec ∈ vecs, ∀ values, vec.Has values → Mentions heap oldSnap newSnap values →
    Dead heap oldSnap newSnap vec.labels values

/-- One list of vectors. -/
theorem removesExactly_iff (heap : Heap) (oldSnap newSnap : Snapshot) (vecs : List (Vec ν))
    (hzero : ZeroFree vecs) :
    RemovesExactly (Dead heap oldSnap newSnap) vecs
        (vecs.map (Vec.cleanup (leftBackends heap oldSnap newSnap))) ↔
      Unambiguous heap oldSnap newSnap vecs := by
  unfold RemovesExactly
  rw [List.forall₂_map_right_iff, List.forall₂_same]
  refine forall₂_congr fun vec hvec => ?_
  simp only [Vec.labels_cleanup, true_and]
  refine forall₂_congr fun values hhas => ?_
  have hne : values ≠ [] := by
    intro hnil
    rw [hnil] at hhas
    exact (hzero vec hvec).1 (List.length_eq_zero_iff.mp hhas.1.symm)
  have hany := any_namesBoth_iff heap oldSnap newSnap hne ((hzero vec hvec).2 values hhas)
  rw [vec.lookup_cleanup]
  constructor
  · -- a series that is not dead is there after the cleanup, so it mentions no pair
    intro h hmentions
    by_contra hlive
    have hkept := h.2 hlive
    rw [if_pos (hany.mpr hmentions)] at hkept
    rw [Vec.Has, ← hkept] at hhas
    exact nomatch hhas.2
  · intro h
    constructor
    · exact fun hdead => if_pos (hany.mpr hdead.mentions)
    · exact fun hlive => if_neg fun hnames => hlive (h (hany.mp hnames))

/-! ## All vectors -/

section

variable {β : Type} [LinearOrder β]

/-- The cleanup does what it should on every vector. -/
def MetricVecs.RemovesExactly (dead : List String → List String → Prop) (mv mv' : MetricVecs β) :
    Prop :=
  Metrics.RemovesExactly dead mv.gaugeVecs mv'.gaugeVecs ∧
    Metrics.RemovesExactly dead mv.counterVecs mv'.counterVecs ∧
    Metrics.RemovesExactly dead mv.histogramVecs mv'.histogramVecs

def MetricVecs.ZeroFree (mv : MetricVecs β) : Prop :=
  Metrics.ZeroFree mv.gaugeVecs ∧ Metrics.ZeroFree mv.counterVecs ∧
    Metrics.ZeroFree mv.histogramVecs

def MetricVecs.Unambiguous (heap : Heap) (oldSnap newSnap : Snapshot) (mv : MetricVecs β) :
    Prop :=
  Metrics.Unambiguous heap oldSnap newSnap mv.gaugeVecs ∧
    Metrics.Unambiguous heap oldSnap newSnap mv.counterVecs ∧
    Metrics.Unambiguous heap oldSnap newSnap mv.histogramVecs

/-- The cleanup goes through all vectors for one pair after the other. -/
theorem MetricVecs.foldl_remove (removed : List (String × String)) (mv : MetricVecs β) :
    removed.foldl (fun mv e => mv.removeByPoolBackend e.1 e.2) mv =
      { gaugeVecs := mv.gaugeVecs.map (Vec.cleanup removed)
        counterVecs := mv.counterVecs.map (Vec.cleanup removed)
        histogramVecs := mv.histogramVecs.map (Vec.cleanup removed) } := by
  induction removed generalizing mv with
  | nil =>
    have hid : ∀ {ν : Type} (vecs : List (Vec ν)), vecs.map (Vec.cleanup []) = vecs :=
      fun vecs => List.map_id _
    rw [hid, hid, hid]
    rfl
  | cons e rest ih =>
    rw [List.foldl_cons, ih]
    simp only [MetricVecs.removeByPoolBackend, List.map_map]
    rfl

end

/-! ## A listener with the name of a pool -/

theorem Vec.not_has_newVec (labels values : List String) :
    ¬ (newVec labels : Vec ν).Has values :=
  fun h => nomatch h.2

/-- The series of a vector after one more `With`. -/
theorem Vec.has_update (zero : ν) (vec : Vec ν) (t : List String) (op : ν → ν)
    (hlen : t.length = vec.labels.length) (hne : t ≠ []) (hzero : ∀ s ∈ t, '\x00' ∉ s.toList)
    (values : List String) :
    (vec.update zero t op).Has values ↔ values = t ∨ vec.Has values := by
  unfold Vec.Has Vec.update
  dsimp only
  rw [RefMap.lookup_insert_eq]
  by_cases hkey : key values = key t
  · rw [if_pos hkey]
    constructor
    · exact fun h => Or.inl (eq_of_key_eq hne hzero (h.1.trans hlen.symm) hkey)
    · intro h
      rcases h with rfl | h
      · exact ⟨hlen, rfl⟩
      · exact ⟨h.1, rfl⟩
  · rw [if_neg hkey]
    exact (or_iff_right fun heq => hkey (by rw [heq])).symm

/-- A pool of these backends. -/
def poolWith (addrs : List String) : PoolState :=
  let servers := newServers (addrs.map fun addr => { address := addr, weight := 1 })
  { lb := Balancer.newBalancer "round_robin" (derefIn servers) (List.range servers.length)
    servers, fr := none, sticky := none, breakers := none, retry := none }

/-- Pools `web`, before and after it loses a backend, and `api`, which has the same
    backend. -/
def sharedHeap : Heap :=
  { pools := [poolWith ["10.0.0.1:80", "10.0.0.2:80"], poolWith ["10.0.0.1:80"],
      poolWith ["10.0.0.2:80"]]
    certs := [] }

/-- A snapshot in which `web` is the pool behind `ref`. -/
def sharedSnapshot (ref : PoolRef) : Snapshot :=
  { poolStates := ((∅ : GoMap PoolRef).insert "web" ref).insert "api" 1
    certStores := ∅, listeners := [], checkers := ∅ }

theorem leftBackends_shared :
    leftBackends sharedHeap (sharedSnapshot 0) (sharedSnapshot 2) = [("web", "10.0.0.1:80")] := by
  decide +kernel

/-- Connections through a listener, one to the shared backend in either pool. -/
def connectionsOf (listener : String) : Vec Nat :=
  ((newVec Metric.connectionsTotal.labelNames).update 0 [listener, "web", "10.0.0.1:80", "tcp"]
    (· + 1)).update 0 [listener, "api", "10.0.0.1:80", "tcp"] (· + 1)

/-- The vectors of `run` with these connections. -/
def trafficOf (listener : String) : MetricVecs Nat :=
  { newMetricVecs Nat with
    counterVecs := [connectionsOf listener, newVec Metric.bytesTransferred.labelNames,
      newVec Metric.dialFailures.labelNames] }

/-- The series of the connections. -/
private theorem has_connectionsOf_front {values : List String}
    (h : (connectionsOf "front").Has values) :
    values = ["front", "api", "10.0.0.1:80", "tcp"] ∨
      values = ["front", "web", "10.0.0.1:80", "tcp"] := by
  rcases (Vec.has_update 0 _ ["front", "api", "10.0.0.1:80", "tcp"] _ rfl (by decide) (by decide)
    values).mp h with heq | hfirst
  · exact Or.inl heq
  · rcases (Vec.has_update 0 _ ["front", "web", "10.0.0.1:80", "tcp"] _ rfl (by decide)
      (by decide) values).mp hfirst with heq | hnew
    · exact Or.inr heq
    · exact absurd hnew (Vec.not_has_newVec _ _)

/-- What holds of new vectors and of the connections holds of all these vectors. -/
private theorem forall_trafficOf (P : ∀ ν : Type, Vec ν → Prop)
    (hnew : ∀ ν labels, labels ≠ [] → P ν (newVec labels))
    (hconns : P Nat (connectionsOf "front")) :
    (∀ vec ∈ (trafficOf "front").gaugeVecs, P Int vec) ∧
      (∀ vec ∈ (trafficOf "front").counterVecs, P Nat vec) ∧
      ∀ vec ∈ (trafficOf "front").histogramVecs, P (Histogram Nat) vec := by
  simp only [trafficOf, newMetricVecs, List.forall_mem_cons, List.not_mem_nil, false_implies,
    implies_true, and_true]
  exact ⟨⟨hnew _ _ (by decide), hnew _ _ (by decide)⟩,
    ⟨hconns, hnew _ _ (by decide), hnew _ _ (by decide)⟩,
    hnew _ _ (by decide), hnew _ _ (by decide), hnew _ _ (by decide), hnew _ _ (by decide),
    hnew _ _ (by decide)⟩

end HootLb.Metrics
