import HootLb.Native.Validate
import HootLb.Spec.View

/-!
# What `Validate` guarantees

Facts about a configuration without validation errors: names are unique, every
pool name that a listener refers to is defined, and the pools can be built.

## Key results

- `Accepted.pool_names_nodup`, `Accepted.listener_names_nodup`
- `Accepted.poolRefs_defined`: no listener refers to an undefined pool
- `Accepted.poolsError_eq_none`: the pool loop of a build does not fail
-/

namespace HootLb.Config

open HootLb.Runtime

@[simp] theorem check_eq_nil (bad : Bool) (field : String) (msg : Message) :
    check bad field msg = [] ↔ bad = false := by
  cases bad <;> simp [check]

/-- Without errors, every entry of a list field passed its own validator. -/
private theorem of_checkEntries {α : Type} (path : String)
    (validate : α → String → List FieldError) (entries : List α)
    (h : checkEntries path validate entries = []) (e : α) (he : e ∈ entries) :
    ∃ p, validate e p = [] := by
  obtain ⟨i, hi⟩ := List.mem_iff_getElem?.mp he
  unfold checkEntries at h
  rw [List.flatMap_eq_nil_iff] at h
  exact ⟨_, h (e, i) (List.mem_zipIdx_iff_getElem?.mpr hi)⟩

/-- Without errors, the names of a list of named entries are unique and every
    entry passed its own validator. -/
private theorem of_validateNamed {α : Type} (path what : String) (name : α → String)
    (validate : α → String → List FieldError) (i : Nat) (seen : List String) (as : List α)
    (h : validateNamed path what name validate i seen as = []) :
    (as.map name).Nodup ∧ (∀ a ∈ as, name a ∉ seen) ∧ ∀ a ∈ as, ∃ p, validate a p = [] := by
  induction as generalizing i seen with
  | nil => simp
  | cons a rest ih =>
    simp only [validateNamed, List.append_eq_nil_iff, check_eq_nil, decide_eq_false_iff_not] at h
    obtain ⟨⟨hseen, hval⟩, hrest⟩ := h
    obtain ⟨hnodup, hfresh, hvals⟩ := ih _ _ hrest
    refine ⟨?_, ?_, ?_⟩
    · rw [List.map_cons, List.nodup_cons]
      refine ⟨?_, hnodup⟩
      intro hmem
      obtain ⟨b, hb, hbe⟩ := List.mem_map.mp hmem
      exact hfresh b hb (by rw [hbe]; exact List.mem_cons_self)
    · intro b hb
      rcases List.mem_cons.mp hb with rfl | hb
      · exact hseen
      · exact fun hs => hfresh b hb (List.mem_cons_of_mem _ hs)
    · intro b hb
      rcases List.mem_cons.mp hb with rfl | hb
      · exact ⟨_, hval⟩
      · exact hvals b hb

/-- The configuration passes `Validate`. -/
def Accepted (getenv : String → String) (tags : BuildTags) (cfg : HootLb.Config) : Prop :=
  validate getenv tags cfg = []

instance (getenv : String → String) (tags : BuildTags) (cfg : HootLb.Config) :
    Decidable (Accepted getenv tags cfg) :=
  inferInstanceAs (Decidable (validate getenv tags cfg = []))

/-- The pool names a listener refers to: its own, those of its routes and splits,
    and, under TLS passthrough, those of its SNI routes. -/
def poolRefs (l : ListenerConfig) : List String :=
  l.pool ::
    ((l.routes.flatMap fun r => if r.split ≠ [] then r.split.map (·.pool) else [r.pool]) ++
      (l.tls.toList.flatMap fun t =>
        if t.mode = "passthrough" then t.routes.map (·.pool) else []))

namespace Accepted

variable {getenv : String → String} {tags : BuildTags} {cfg : HootLb.Config}

/-- The two loops of `Validate` over named entries. -/
private theorem loops (h : Accepted getenv tags cfg) :
    validateNamed "pools" "pool" (·.name) (validatePool tags) 0 [] cfg.pools = [] ∧
    validateNamed "listeners" "listener" (·.name)
      (validateListener (cfg.pools.map (·.name))) 0 [] cfg.listeners = [] := by
  simp only [Accepted, validate, List.append_eq_nil_iff] at h
  exact ⟨h.1.2, h.2⟩

theorem pool_names_nodup (h : Accepted getenv tags cfg) : (cfg.pools.map (·.name)).Nodup :=
  (of_validateNamed _ _ _ _ _ _ _ h.loops.1).1

theorem listener_names_nodup (h : Accepted getenv tags cfg) :
    (cfg.listeners.map (·.name)).Nodup :=
  (of_validateNamed _ _ _ _ _ _ _ h.loops.2).1

/-- Every pool passed `validatePool`. -/
theorem pool_ok (h : Accepted getenv tags cfg) (p : PoolConfig) (hp : p ∈ cfg.pools) :
    ∃ path, validatePool tags p path = [] :=
  (of_validateNamed _ _ _ _ _ _ _ h.loops.1).2.2 p hp

/-- Every listener passed `validateListener`. -/
theorem listener_ok (h : Accepted getenv tags cfg) (l : ListenerConfig)
    (hl : l ∈ cfg.listeners) :
    ∃ path, validateListener (cfg.pools.map (·.name)) l path = [] :=
  (of_validateNamed _ _ _ _ _ _ _ h.loops.2).2.2 l hl

/-- The algorithm of every pool is a known one. -/
theorem algorithm_known (h : Accepted getenv tags cfg) (p : PoolConfig) (hp : p ∈ cfg.pools) :
    p.algorithm ∈ ["round_robin", "weighted_round_robin", "least_conn", "random", "ip_hash"] := by
  obtain ⟨path, hv⟩ := h.pool_ok p hp
  simp only [validatePool, List.append_eq_nil_iff, check_eq_nil, decide_eq_false_iff_not,
    Decidable.not_not] at hv
  exact hv.1.1.1.1.1.1.1.1

/-- A pool with static backends has no discovery source. -/
theorem discovery_eq_none (h : Accepted getenv tags cfg) (p : PoolConfig) (hp : p ∈ cfg.pools)
    (hne : p.backends ≠ []) : p.discovery = none := by
  obtain ⟨path, hv⟩ := h.pool_ok p hp
  simp only [validatePool, List.append_eq_nil_iff, check_eq_nil] at hv
  have hboth := hv.1.1.1.1.1.1.1.2
  simpa [hne] using hboth

/-- Every static backend has a positive weight and a well-formed address. -/
theorem backend_ok (h : Accepted getenv tags cfg) (p : PoolConfig) (hp : p ∈ cfg.pools)
    (b : BackendConfig) (hb : b ∈ p.backends) :
    0 < b.weight ∧ validateHostPort b.address = none := by
  obtain ⟨path, hv⟩ := h.pool_ok p hp
  simp only [validatePool, List.append_eq_nil_iff] at hv
  obtain ⟨path', hb⟩ := of_checkEntries _ _ _ hv.1.1.1.1.1.2 b hb
  simp only [validatePoolBackend, checkAddress, checkPositive, List.append_eq_nil_iff,
    check_eq_nil, decide_eq_false_iff_not] at hb
  obtain ⟨haddr, hweight⟩ := hb
  refine ⟨Int.not_le.mp hweight, ?_⟩
  cases hv : validateHostPort b.address with
  | none => rfl
  | some e => rw [hv] at haddr; exact nomatch haddr

end Accepted

/-! ## References -/

private theorem of_checkPoolDefined (names : List String) (pool field : String)
    (h : checkPoolDefined names pool field = []) : pool ∈ names := by
  simpa [checkPoolDefined] using h

private theorem of_checkPoolRef (names : List String) (pool field : String)
    (h : checkPoolRef names pool field = []) : pool ∈ names := by
  unfold checkPoolRef at h
  split at h
  · exact nomatch h
  · exact of_checkPoolDefined names pool field h

/-- The pools of an accepted route are defined. -/
private theorem of_validateRoute (names : List String) (r : RouteConfig) (path name : String)
    (h : validateRoute names r path = [])
    (hmem : name ∈ if r.split ≠ [] then r.split.map (·.pool) else [r.pool]) : name ∈ names := by
  simp only [validateRoute] at h
  split at h
  · exact nomatch h
  · rename_i hsome
    simp only [List.append_eq_nil_iff] at h
    obtain ⟨⟨⟨-, hpool⟩, hsplit⟩, -⟩ := h
    by_cases hs : r.split ≠ []
    · rw [if_pos hs] at hsplit hmem
      obtain ⟨s, hs', rfl⟩ := List.mem_map.mp hmem
      obtain ⟨p, hp⟩ := of_checkEntries _ _ _ (List.append_eq_nil_iff.mp hsplit).2 s hs'
      exact of_checkPoolDefined names s.pool _ (List.append_eq_nil_iff.mp hp).2
    · -- without a split the route has a pool
      have hp : r.pool ≠ "" := fun hp => hsome ⟨fun hne => hne hp, hs⟩
      rw [if_pos hp] at hpool
      rw [if_neg hs, List.mem_singleton] at hmem
      exact hmem ▸ of_checkPoolDefined names r.pool _ hpool

/-- The pools of accepted SNI routes are defined. -/
private theorem of_validateTLS (names : List String) (t : TLSConfig) (path protocol name : String)
    (h : validateTLS names t path protocol = []) (hmode : t.mode = "passthrough")
    (hmem : name ∈ t.routes.map (·.pool)) : name ∈ names := by
  simp only [validateTLS, List.append_eq_nil_iff] at h
  obtain ⟨-, h⟩ := h
  rw [if_neg (by rw [hmode]; decide), if_pos hmode] at h
  obtain ⟨r, hr, rfl⟩ := List.mem_map.mp hmem
  obtain ⟨p, hp⟩ := of_checkEntries _ _ _ (List.append_eq_nil_iff.mp h).2 r hr
  exact of_checkPoolRef names r.pool _ hp

/-- No listener of an accepted configuration refers to an undefined pool. -/
theorem Accepted.poolRefs_defined {getenv : String → String} {tags : BuildTags}
    {cfg : HootLb.Config} (h : Accepted getenv tags cfg) (l : ListenerConfig)
    (hl : l ∈ cfg.listeners) (name : String) (hname : name ∈ poolRefs l) :
    name ∈ cfg.pools.map (·.name) := by
  obtain ⟨path, hv⟩ := h.listener_ok l hl
  simp only [validateListener, List.append_eq_nil_iff] at hv
  obtain ⟨⟨⟨⟨⟨-, hpool⟩, -⟩, hroutes⟩, htls⟩, -⟩ := hv
  simp only [poolRefs, List.mem_cons, List.mem_append, List.mem_flatMap] at hname
  rcases hname with rfl | ⟨r, hr, hmem⟩ | ⟨t, ht, hmem⟩
  · exact of_checkPoolRef _ _ _ hpool
  · obtain ⟨p, hp⟩ := of_checkEntries _ _ _ hroutes r hr
    exact of_validateRoute _ r p name hp hmem
  · split at hmem
    · rename_i hmode
      exact of_validateTLS _ t path l.protocol name (List.flatMap_eq_nil_iff.mp htls t ht)
        hmode hmem
    · exact nomatch hmem

/-! ## Discovery -/

/-- A case of the switch that reports nothing: the adapter is compiled in and its
    block is present. -/
private theorem of_validateDiscoveryCase (path type : String) (available : Bool) {α : Type}
    (block : Option α) (errors : α → List FieldError) (others : List (String × Bool))
    (h : validateDiscoveryCase path type available (block.map errors) others = []) :
    available = true ∧ block.isNone = false := by
  unfold validateDiscoveryCase at h
  cases available with
  | false => exact nomatch h
  | true =>
    cases block with
    | none => exact nomatch h
    | some _ => exact ⟨rfl, rfl⟩

/-- The adapter of an accepted discovery block can be made. -/
private theorem of_validateDiscovery (tags : BuildTags) (p : PoolConfig) (d : DiscoveryConfig)
    (path : String) (hd : p.discovery = some d) (h : validateDiscovery tags d path = []) :
    newDiscoveryAdapter tags p = .ok () := by
  simp only [validateDiscovery, List.append_eq_nil_iff, check_eq_nil] at h
  obtain ⟨htype, hcase⟩ := h
  simp only [newDiscoveryAdapter, hd]
  -- the switch of the validator and that of the adapter go through the types in one order
  by_cases hdns : d.type = "dns"
  · rw [if_pos hdns] at hcase ⊢
    obtain ⟨-, hblock⟩ := of_validateDiscoveryCase _ _ _ _ _ _ hcase
    simp [hblock]
  rw [if_neg hdns] at hcase ⊢
  by_cases hconsul : d.type = "consul"
  · rw [if_pos hconsul] at hcase ⊢
    obtain ⟨htag, hblock⟩ := of_validateDiscoveryCase _ _ _ _ _ _ hcase
    simp [htag, hblock]
  rw [if_neg hconsul] at hcase ⊢
  by_cases hk8s : d.type = "k8s"
  · rw [if_pos hk8s] at hcase ⊢
    obtain ⟨htag, hblock⟩ := of_validateDiscoveryCase _ _ _ _ _ _ hcase
    simp [htag, hblock]
  rw [if_neg hk8s] at hcase ⊢
  by_cases hdocker : d.type = "docker"
  · rw [if_pos hdocker] at hcase ⊢
    obtain ⟨htag, hblock⟩ := of_validateDiscoveryCase _ _ _ _ _ _ hcase
    simp [htag, hblock]
  -- no other type passes the first check
  simp [hdns, hconsul, hk8s, hdocker] at htype

/-- The pool loop of a build does not fail on an accepted configuration. -/
theorem Accepted.poolsError_eq_none {getenv : String → String} {tags : BuildTags}
    {cfg : HootLb.Config} (h : Accepted getenv tags cfg) : poolsError tags cfg.pools = none := by
  have hadapter : ∀ p ∈ cfg.pools, ∀ d, p.discovery = some d →
      newDiscoveryAdapter tags p = .ok () := by
    intro p hp d hd
    obtain ⟨path, hv⟩ := h.pool_ok p hp
    simp only [validatePool, List.append_eq_nil_iff, hd, Option.toList_some,
      List.flatMap_cons, List.flatMap_nil, List.append_nil] at hv
    exact of_validateDiscovery tags p d _ hd hv.1.1.1.1.2
  generalize cfg.pools = pools at hadapter
  induction pools with
  | nil => rfl
  | cons p rest ih =>
    have hrest := ih fun q hq => hadapter q (List.mem_cons_of_mem _ hq)
    simp only [poolsError]
    cases hd : p.discovery with
    | none => exact hrest
    | some d =>
      rw [hadapter p List.mem_cons_self d hd]
      exact hrest

end HootLb.Config
