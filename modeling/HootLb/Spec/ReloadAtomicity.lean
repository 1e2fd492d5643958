import HootLb.Spec.StoreView

/-!
# Reloads that do not complete

`checkAndReload` keeps the current snapshot when it stops early, but it refills
the running certificate stores listener by listener before it knows that it will
complete. A store that was refilled before the failing step keeps its new
certificates.

## Key results

- `reloadCertificates_sameCerts_iff`: which runs of the certificate loop leave
  every store as it was
- `failed_reload_changes_nothing_iff`: a reload that does not complete changes
  nothing exactly when the certificates it read were those already in the stores
-/

namespace HootLb.Reload

open Config HootLb.Runtime

/-! ## What a certificate store holds -/

/-- The certificate a store holds for a host. -/
def heldBy (certs : List (GoMap Certificate)) (ref : CertRef) (host : String) :
    Option Certificate :=
  (certs[ref]?).bind fun m => m.lookup host

/-- Every certificate store holds the same map. -/
def SameCerts (certs certs' : List (GoMap Certificate)) : Prop :=
  ∀ ref host, heldBy certs' ref host = heldBy certs ref host

/-- The current snapshot, the pool states it points at and the certificate map of
    every store are the same in both stores. -/
structure Untouched (σ σ' : Store) : Prop where
  snapshot : σ'.current = σ.current
  pools : σ'.heap.pools = σ.heap.pools
  stores : σ'.heap.certs.length = σ.heap.certs.length
  certs : SameCerts σ.heap.certs σ'.heap.certs

theorem heldBy_set_self (certs : List (GoMap Certificate)) (ref : CertRef) (m : GoMap Certificate)
    (host : String) (h : ref < certs.length) :
    heldBy (certs.set ref m) ref host = m.lookup host := by
  simp [heldBy, h]

theorem heldBy_set_of_ne (certs : List (GoMap Certificate)) (ref ref' : CertRef)
    (m : GoMap Certificate) (host : String) (h : ref ≠ ref') :
    heldBy (certs.set ref m) ref' host = heldBy certs ref' host := by
  simp [heldBy, h]

/-! ## The certificate loop -/

/-- The loop gets past this listener: it has no running store, or all its key
    pairs load. -/
def passes (load : KeyPairLoader) (stores : GoMap CertRef) (l : ListenerConfig) : Bool :=
  match terminateCerts l, stores.lookup l.name with
  | some entries, some _ => (keyPairError load entries).isNone
  | _, _ => true

/-- The key pairs of a listener on disk are those its running store holds. -/
def DiskInStep (load : KeyPairLoader) (stores : GoMap CertRef) (certs : List (GoMap Certificate))
    (l : ListenerConfig) : Prop :=
  ∀ entries ref m, terminateCerts l = some entries → stores.lookup l.name = some ref →
    loadCertificates load entries ∅ = .ok m → ∀ host, m.lookup host = heldBy certs ref host

theorem DiskInStep.congr {load : KeyPairLoader} {stores : GoMap CertRef}
    {certs certs' : List (GoMap Certificate)} {l : ListenerConfig} (hsame : SameCerts certs certs')
    (h : DiskInStep load stores certs l) : DiskInStep load stores certs' l := by
  intro entries ref m hl hs hm host
  rw [hsame ref host]
  exact h entries ref m hl hs hm host

/-- The loop leaves the stores of other listeners alone. -/
theorem reloadCertificates_frame (load : KeyPairLoader) (stores : GoMap CertRef)
    (ls : List ListenerConfig) (certs : List (GoMap Certificate)) (ref : CertRef)
    (h : ∀ l ∈ ls, stores.lookup l.name ≠ some ref) (host : String) :
    heldBy (reloadCertificates load stores ls certs).2 ref host = heldBy certs ref host := by
  induction ls generalizing certs with
  | nil => rfl
  | cons l rest ih =>
    have hrest : ∀ l' ∈ rest, stores.lookup l'.name ≠ some ref :=
      fun l' hl' => h l' (List.mem_cons_of_mem l hl')
    simp only [reloadCertificates]
    cases hl : terminateCerts l with
    | none => exact ih certs hrest
    | some entries =>
      cases hs : stores.lookup l.name with
      | none => exact ih certs hrest
      | some ref' =>
        cases hm : loadCertificates load entries ∅ with
        | error why => simp only [hm]
        | ok m =>
          have hne : ref' ≠ ref := by
            intro heq
            exact h l List.mem_cons_self (heq ▸ hs)
          simp only [hm]
          rw [ih (certs.set ref' m) hrest, heldBy_set_of_ne certs ref' ref m host hne]

/-- Refilling a store with what it holds changes nothing. -/
private theorem sameCerts_set (certs : List (GoMap Certificate)) (ref : CertRef)
    (m : GoMap Certificate) (href : ref < certs.length)
    (hm : ∀ host, m.lookup host = heldBy certs ref host) :
    SameCerts certs (certs.set ref m) := by
  intro ref' host
  by_cases hr : ref = ref'
  · subst hr
    rw [heldBy_set_self certs ref m host href, hm host]
  · exact heldBy_set_of_ne certs ref ref' m host hr

/-- Refilling one store first: nothing changes overall exactly when the refill
    changes nothing and neither does the rest of the loop. -/
private theorem sameCerts_set_iff (certs certs' : List (GoMap Certificate)) (ref : CertRef)
    (m : GoMap Certificate) (href : ref < certs.length)
    (hkept : ∀ host, heldBy certs' ref host = m.lookup host) :
    SameCerts certs certs' ↔
      (∀ host, m.lookup host = heldBy certs ref host) ∧ SameCerts (certs.set ref m) certs' := by
  constructor
  · intro h
    have hm : ∀ host, m.lookup host = heldBy certs ref host := by
      intro host
      rw [← hkept host, h ref host]
    exact ⟨hm, fun ref' host => by rw [h ref' host, sameCerts_set certs ref m href hm ref' host]⟩
  · intro h ref' host
    rw [h.2 ref' host, sameCerts_set certs ref m href h.1 ref' host]

/-- The loop leaves every store as it was exactly when each listener it gets past
    was in step with the disk. -/
theorem reloadCertificates_sameCerts_iff (load : KeyPairLoader) (stores : GoMap CertRef)
    (hinj : RefMap.Injective stores) (ls : List ListenerConfig)
    (hnodup : (ls.map (·.name)).Nodup) (certs : List (GoMap Certificate))
    (hv : RefMap.Valid stores certs) :
    SameCerts certs (reloadCertificates load stores ls certs).2 ↔
      ∀ l ∈ ls.takeWhile (passes load stores), DiskInStep load stores certs l := by
  induction ls generalizing certs with
  | nil => simp [reloadCertificates, SameCerts]
  | cons l rest ih =>
    obtain ⟨hfresh, hrest⟩ := List.nodup_cons.mp hnodup
    -- a listener without a running store is in step and is passed
    have hskip : passes load stores l = true → DiskInStep load stores certs l →
        (SameCerts certs (reloadCertificates load stores rest certs).2 ↔
          ∀ l' ∈ (l :: rest).takeWhile (passes load stores), DiskInStep load stores certs l') := by
      intro hp hin
      rw [List.takeWhile_cons_of_pos hp, List.forall_mem_cons, ih hrest certs hv]
      exact (and_iff_right hin).symm
    simp only [reloadCertificates]
    cases hl : terminateCerts l with
    | none =>
      exact hskip (by simp [passes, hl]) fun entries ref m h => by rw [hl] at h; cases h
    | some entries =>
      cases hs : stores.lookup l.name with
      | none =>
        exact hskip (by simp [passes, hl, hs]) fun entries ref m _ h => by rw [hs] at h; cases h
      | some ref =>
        have hload := loadCertificates_eq load entries ∅
        cases hk : keyPairError load entries with
        | some e =>
          rw [hk] at hload
          have hp : ¬ passes load stores l = true := by simp [passes, hl, hs, hk]
          rw [List.takeWhile_cons_of_neg hp]
          simp [hload, SameCerts]
        | none =>
          rw [hk] at hload
          obtain ⟨m, hm⟩ := hload
          have hp : passes load stores l = true := by simp [passes, hl, hs, hk]
          have href : ref < certs.length := hv l.name ref hs
          have hv' : RefMap.Valid stores (certs.set ref m) := by
            intro k r hk
            rw [List.length_set]
            exact hv k r hk
          -- no later listener has this store
          have hothers : ∀ l' ∈ rest, stores.lookup l'.name ≠ some ref := by
            intro l' hl' heq
            have hname : l.name = l'.name := hinj l.name l'.name ref hs heq
            have hmem : l'.name ∈ rest.map (·.name) := List.mem_map_of_mem hl'
            rw [← hname] at hmem
            exact hfresh hmem
          have hkept : ∀ host,
              heldBy (reloadCertificates load stores rest (certs.set ref m)).2 ref host =
                m.lookup host := by
            intro host
            rw [reloadCertificates_frame load stores rest _ ref hothers host,
              heldBy_set_self certs ref m host href]
          have hin : DiskInStep load stores certs l ↔
              ∀ host, m.lookup host = heldBy certs ref host := by
            constructor
            · intro h
              exact h entries ref m hl hs hm
            · intro h entries' ref' m' hl' hs' hm'
              rw [hl] at hl'; cases hl'
              rw [hs] at hs'; cases hs'
              rw [hm] at hm'; cases hm'
              exact h
          simp only [hm]
          rw [sameCerts_set_iff certs _ ref m href hkept, ih hrest _ hv',
            List.takeWhile_cons_of_pos hp, List.forall_mem_cons, hin]
          -- the refill changes nothing, so being in step before and after it is the same
          refine and_congr_right fun heq => ?_
          have hsame : SameCerts certs (certs.set ref m) := sameCerts_set certs ref m href heq
          have hback : SameCerts (certs.set ref m) certs := fun r host => (hsame r host).symm
          exact ⟨fun h l' hl' => (h l' hl').congr hback, fun h l' hl' => (h l' hl').congr hsame⟩

/-! ## A reload that does not complete -/

theorem Untouched.refl (σ : Store) : Untouched σ σ := ⟨rfl, rfl, rfl, fun _ _ => rfl⟩

/-- What a reload that does not complete leaves behind: the store as it was, or
    with the certificates the loop put there. -/
theorem Watcher.checkAndReload_failed (w : Watcher) (env : ReloadEnv) (σ : Store)
    (e : ReloadError) (hfail : (w.checkAndReload env σ).1 = some e) :
    (w.checkAndReload env σ).2 = σ ∧
        (∀ cfg, w.host.load env.file = .ok cfg →
          diffListeners σ.current.listeners (cfg.listeners.map fingerprint) ≠ none) ∨
      ∃ cfg, w.host.load env.file = .ok cfg ∧
        diffListeners σ.current.listeners (cfg.listeners.map fingerprint) = none ∧
        (w.checkAndReload env σ).2 = { σ with heap := { σ.heap with
          certs := (reloadCertificates env.loadX509KeyPair w.certStores cfg.listeners
            σ.heap.certs).2 } } := by
  unfold Watcher.checkAndReload at hfail ⊢
  cases hcfg : w.host.load env.file with
  | error why => exact .inl ⟨rfl, fun cfg h => by cases h⟩
  | ok cfg =>
    rw [hcfg] at hfail
    dsimp only at hfail ⊢
    unfold Watcher.rebuild at hfail ⊢
    cases hd : diffListeners σ.current.listeners (cfg.listeners.map fingerprint) with
    | some change =>
      refine .inl ⟨rfl, fun cfg' h => ?_⟩
      cases h
      rw [hd]
      simp
    | none =>
      refine .inr ⟨cfg, rfl, hd, ?_⟩
      rw [hd] at hfail
      dsimp only at hfail ⊢
      generalize reloadCertificates env.loadX509KeyPair w.certStores cfg.listeners σ.heap.certs = r
        at hfail ⊢
      obtain ⟨err, certs⟩ := r
      cases err with
      | some e' => rfl
      | none =>
        dsimp only at hfail ⊢
        generalize buildSnapshot w.host.tags env.build cfg { σ.heap with certs := certs } = b
          at hfail ⊢
        cases b with
        | error why => rfl
        | ok built => cases hfail

/-! ## The startup stores -/

/-- Every listener gets a certificate store of its own. -/
theorem buildCertStores_injective (env : BuildEnv) (ls : List ListenerConfig)
    (certs certs' : List (GoMap Certificate)) (stores stores' : GoMap CertRef)
    (hv : RefMap.Valid stores certs) (hinj : RefMap.Injective stores)
    (h : buildCertStores env ls certs stores = .ok (certs', stores')) :
    RefMap.Injective stores' := by
  induction ls generalizing certs stores with
  | nil => cases h; exact hinj
  | cons l rest ih =>
    simp only [buildCertStores] at h
    cases hl : terminateCerts l with
    | none =>
      simp only [hl] at h
      exact ih certs stores hv hinj h
    | some entries =>
      cases hm : loadCertificates env.loadX509KeyPair entries ∅ with
      | error e => simp only [hl, hm] at h; cases h
      | ok m =>
        simp only [hl, hm] at h
        exact ih (certs ++ [m]) (stores.insert l.name certs.length) (hv.alloc l.name m)
          (hinj.alloc hv l.name) h

end HootLb.Reload

namespace HootLb

open Config HootLb.Runtime HootLb.Reload

/-- The stores the watcher refills are separate objects. -/
theorem startup_certStores_injective (host : Host) (file : Except String Bytes) (env : BuildEnv)
    (now : Circuitbreaker.Time) (s : System) (h : startup host file env now = .ok s) :
    RefMap.Injective s.watcher.certStores := by
  obtain ⟨snap, heap, -, hbuilt, -, hwatcher, -⟩ := startup_built host file env now s h
  rw [hwatcher]
  unfold buildSnapshot at hbuilt
  split at hbuilt
  · cases hbuilt
  · split at hbuilt
    · cases hbuilt
    · rename_i certs certStores hcerts
      cases hbuilt
      exact buildCertStores_injective env s.cfg.listeners [] certs ∅ certStores
        (RefMap.valid_empty _) RefMap.injective_empty hcerts

/-- No operation takes a certificate store away. -/
theorem System.step_certs_length (s : System) (op : Op) :
    s.store.heap.certs.length ≤ (s.step op).store.heap.certs.length := by
  apply s.step_store_inv (P := fun σ => s.store.heap.certs.length ≤ σ.heap.certs.length) op
  · exact Nat.le_refl _
  · intro u _
    exact Nat.le_refl _
  · intro ref e
    exact Nat.le_refl _
  · intro env _
    cases he : s.watcher.reloadError env s.store.current.listeners with
    | some e =>
      obtain ⟨certs, hlen, hrun⟩ := s.watcher.checkAndReload_of_error env s.store e he
      simp only [System.step, hrun]
      omega
    | none =>
      obtain ⟨cfg, certs, new, heap', -, hlen, hbuilt, hrun⟩ :=
        s.watcher.checkAndReload_installs env s.store he
      obtain ⟨-, -, hgrow⟩ := buildSnapshot_spec _ _ _ _ _ _ hbuilt
      have hle : certs.length ≤ heap'.certs.length := hgrow.certs
      simp only [System.step, hrun, Store.install]
      omega

/-- In every running state the stores the watcher refills exist. -/
theorem System.exec_certStores_valid (s : System) (ops : List Op)
    (h : RefMap.Valid s.watcher.certStores s.store.heap.certs) :
    RefMap.Valid (s.exec ops).watcher.certStores (s.exec ops).store.heap.certs := by
  induction ops generalizing s with
  | nil => exact h
  | cons op rest ih =>
    apply ih (s.step op)
    intro name ref hname
    rw [System.step_watcher] at hname
    have hlen := s.step_certs_length op
    have hlt := h name ref hname
    omega

/-! ## The whole reload -/

/-- Every listener the certificate loop gets past, if the reload reaches the loop
    at all, has on disk what its running store holds. -/
def System.CertsInStep (s : System) (env : ReloadEnv) : Prop :=
  ∀ cfg, s.watcher.host.load env.file = .ok cfg →
    diffListeners s.store.current.listeners (cfg.listeners.map fingerprint) = none →
    ∀ l ∈ cfg.listeners.takeWhile (passes env.loadX509KeyPair s.watcher.certStores),
      DiskInStep env.loadX509KeyPair s.watcher.certStores s.store.heap.certs l

/-- In every running state, a reload that does not complete leaves the current
    snapshot and every certificate store as they were exactly when the listeners
    whose certificates it loaded before it stopped were in step with the disk. -/
theorem failed_reload_changes_nothing_iff (host : Host) (file : Except String Bytes)
    (env₀ : BuildEnv) (now : Circuitbreaker.Time) (s₀ : System)
    (hstart : startup host file env₀ now = .ok s₀) (ops : List Op) (env : ReloadEnv)
    (e : ReloadError)
    (hfail : ((s₀.exec ops).watcher.checkAndReload env (s₀.exec ops).store).1 = some e) :
    Untouched (s₀.exec ops).store
        ((s₀.exec ops).watcher.checkAndReload env (s₀.exec ops).store).2 ↔
      (s₀.exec ops).CertsInStep env := by
  obtain ⟨-, -, hwf, -, hstores, -⟩ := startup_spec host file env₀ now s₀ hstart
  have hinj₀ := startup_certStores_injective host file env₀ now s₀ hstart
  have hvalid : RefMap.Valid (s₀.exec ops).watcher.certStores (s₀.exec ops).store.heap.certs := by
    apply s₀.exec_certStores_valid ops
    rw [hstores]
    exact hwf.certs
  have hinj : RefMap.Injective (s₀.exec ops).watcher.certStores := by
    rw [System.exec_watcher]
    exact hinj₀
  generalize s₀.exec ops = s at hfail hvalid hinj ⊢
  rcases s.watcher.checkAndReload_failed env s.store e hfail with
    ⟨hsame, hno⟩ | ⟨cfg, hcfg, hd, hrun⟩
  · -- the certificate loop was not reached
    rw [hsame]
    exact iff_of_true (Untouched.refl s.store) fun cfg hcfg hd => absurd hd (hno cfg hcfg)
  · have hnodup := (Host.load_accepted _ _ _ hcfg).listener_names_nodup
    have hloop := reloadCertificates_sameCerts_iff env.loadX509KeyPair s.watcher.certStores hinj
      cfg.listeners hnodup s.store.heap.certs hvalid
    have hlen := (reloadCertificates_spec env.loadX509KeyPair s.watcher.certStores cfg.listeners
      s.store.heap.certs).2
    rw [hrun]
    constructor
    · intro h cfg' hcfg' _
      rw [hcfg] at hcfg'
      cases hcfg'
      exact hloop.mp h.certs
    · intro h
      exact ⟨rfl, rfl, hlen, hloop.mpr (h cfg hcfg hd)⟩

/-! ## A certificate that disappears -/

/-- An HTTP listener that terminates TLS with one certificate. -/
def tlsListener (name address certFile : String) : ListenerConfig :=
  { Sample.listener name address "http" "web" with
    tls := some
      { mode := "terminate", certificates := [{ host := "", certFile, keyFile := "key.pem" }]
        routes := [], handshakeTimeout := 10000000000 } }

/-- Two listeners with a certificate each. -/
def tlsConfig : Config :=
  { plainConfig with
    listeners := [tlsListener "front" "0.0.0.0:443" "front.pem",
      tlsListener "back" "0.0.0.0:8443" "back.pem"] }

/-- Every certificate file is there and holds the certificate of its name. -/
def tlsEnv : BuildEnv :=
  { loadX509KeyPair := fun certFile _ => .ok certFile, resolve := fun _ => .error "no such host" }

/-- A reload of the same file when `front.pem` holds `front` and `back.pem` is
    gone. -/
def tlsReload (front : Certificate) : ReloadEnv :=
  let load : KeyPairLoader := fun certFile _ =>
    if certFile = "front.pem" then .ok front else .error "no such file"
  { file := .ok [0], loadX509KeyPair := load
    build := { loadX509KeyPair := load, resolve := fun _ => .error "no such host" } }

/-- With a renewed certificate for the first listener the failed reload leaves
    its store changed. -/
theorem failed_reload_keeps_renewed_certificate :
    ∃ s₀ e, startup (Sample.host [tlsConfig]) (.ok [0]) tlsEnv 0 = .ok s₀ ∧
      (s₀.watcher.checkAndReload (tlsReload "renewed") s₀.store).1 = some e ∧
      ¬ Untouched s₀.store (s₀.watcher.checkAndReload (tlsReload "renewed") s₀.store).2 := by
  refine ⟨_, _, rfl, rfl, fun h => ?_⟩
  have hfront := h.certs 0 ""
  exact absurd hfront (by decide)

/-- With the certificate the store already holds, the same failure changes
    nothing. -/
theorem failed_reload_in_step_changes_nothing :
    ∃ s₀ e, startup (Sample.host [tlsConfig]) (.ok [0]) tlsEnv 0 = .ok s₀ ∧
      (s₀.watcher.checkAndReload (tlsReload "front.pem") s₀.store).1 = some e ∧
      Untouched s₀.store (s₀.watcher.checkAndReload (tlsReload "front.pem") s₀.store).2 := by
  refine ⟨_, _, rfl, rfl, ?_⟩
  refine (failed_reload_changes_nothing_iff (Sample.host [tlsConfig]) (.ok [0]) tlsEnv 0 _ rfl []
    (tlsReload "front.pem") _ rfl).mpr ?_
  intro cfg hcfg hd l hl
  cases hcfg
  cases hl with
  | head =>
    intro entries ref m hentries href hm host
    cases hentries
    cases href
    cases hm
    rfl
  | tail _ hl => cases hl

end HootLb
