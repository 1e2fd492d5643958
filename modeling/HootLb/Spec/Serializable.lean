import HootLb.Spec.Updaters

/-!
# Interleaved updaters

Admin requests, pollers and the watcher replace the snapshot without a common
lock, and the swap does not look at what it replaces. This module gives a
condition under which an interleaving amounts to running the updaters one after
another: every swap of an add, a removal or a poll still finds the snapshot the
updater loaded. A reload needs no such condition, because it makes a whole
snapshot from the file and looks at the loaded one only to compare the listeners.

An updater that gives up takes its place in the order when it loads, also when
this shows only at its build; one that swaps takes its place at the swap.

## Key results

- `Simulated.step`: a step of an interleaving is no step or a whole updater on views
- `serialBy_of_fresh`: whole interleavings, on views
- `fresh_swaps_serialize`: whole interleavings, from startup on
-/

namespace HootLb

open Config HootLb.Runtime HootLb.Reload HootLb.Admin AtomicCell

variable (cfg : Config) (w : Watcher)

/-! ## Interleavings -/

section

variable (running : List ListenerFingerprint)

/-- What is true of an updater at a stage, and whether it has answered as far as
    views are concerned. `running` are the listeners, in some order. -/
inductive Simulates (heap : Heap) (u : Update) : Stage → Option Answer → Prop
  | ready : Simulates heap u .ready none
  | loaded {old : Snapshot} {plan : Plan} {a : Answer} {v : View} (hwf : old.WF heap)
      (hlisten : old.listeners.Perm running)
      (hdecide : u.decide cfg w (old.view heap).pools = .inr plan)
      (hplan : plan.onView w (old.view heap) = (a, some v)) :
      Simulates heap u (.loaded old plan) none
  -- a reload that its build is going to reject
  | rejected {old : Snapshot} {plan : Plan} {a : Answer} (hwf : old.WF heap)
      (hplan : plan.onView w (old.view heap) = (a, none)) :
      Simulates heap u (.loaded old plan) (some a)
  | built {old : Snapshot} {b : Built} {a : Answer} (hwf : old.WF heap) (hnew : b.new.WF heap)
      (hlisten : old.listeners.Perm running)
      (hupdate : u.onView cfg w (old.view heap) = (a, some (b.new.view heap))) :
      Simulates heap u (.built old b a) none
  | finished (a : Answer) : Simulates heap u (.finished a) (some a)

variable {cfg w running}

/-- Allocations by others change nothing. -/
theorem Simulates.grow {heap heap' : Heap} {u : Update} {stage : Stage} {answer : Option Answer}
    (h : Simulates cfg w running heap u stage answer) (hgrow : heap.Grows heap') :
    Simulates cfg w running heap' u stage answer := by
  cases h with
  | ready => exact .ready
  | loaded hwf hlisten hdecide hplan =>
    rw [← hwf.view_grow hgrow] at hdecide hplan
    exact .loaded (hwf.grow hgrow) hlisten hdecide hplan
  | rejected hwf hplan =>
    rw [← hwf.view_grow hgrow] at hplan
    exact .rejected (hwf.grow hgrow) hplan
  | built hwf hnew hlisten hupdate =>
    rw [← hwf.view_grow hgrow, ← hnew.view_grow hgrow] at hupdate
    exact .built (hwf.grow hgrow) (hnew.grow hgrow) hlisten hupdate
  | finished a => exact .finished a

variable {n : Nat}

/-- An interleaving and the cell of views it amounts to. -/
structure Simulated (cfg : Config) (w : Watcher) (running : List ListenerFingerprint)
    (updates : Fin n → Update) (c : Concurrent n) (s : State (Fin n) View Answer) : Prop where
  wf : c.store.WF
  cell : s.cell = c.store.view
  listeners : c.store.current.listeners.Perm running
  stages : ∀ i, Simulates cfg w running c.store.heap (updates i) (c.stage i) (s.answer i)

variable {updates : Fin n → Update} {c : Concurrent n} {s : State (Fin n) View Answer}

/-- A step changes one stage, and the store in a way the others do not notice. -/
theorem Simulated.put (h : Simulated cfg w running updates c s) (i : Fin n) {stage : Stage}
    (σ : Store) {answer : Option Answer} (hgrow : c.store.heap.Grows σ.heap) (hwf : σ.WF)
    (hlisten : σ.current.listeners.Perm running)
    (hstage : Simulates cfg w running σ.heap (updates i) stage answer) :
    Simulated cfg w running updates (c.put i stage σ)
      { cell := σ.view, answer := Function.update s.answer i answer } := by
  refine ⟨hwf, rfl, hlisten, fun j => ?_⟩
  simp only [Concurrent.put]
  by_cases hji : j = i
  · subst hji
    rw [Function.update_self, Function.update_self]
    exact hstage
  · rw [Function.update_of_ne hji, Function.update_of_ne hji]
    exact (h.stages j).grow hgrow

/-- A step that is none on views. -/
theorem Simulated.stutter (h : Simulated cfg w running updates c s) (i : Fin n) {stage : Stage}
    {heap : Heap} (hgrow : c.store.heap.Grows heap)
    (hstage : Simulates cfg w running heap (updates i) stage (s.answer i)) :
    Simulated cfg w running updates (c.put i stage { c.store with heap }) s := by
  have hview : ({ c.store with heap } : Store).view = s.cell := by
    rw [h.cell]
    exact Snapshot.WF.view_grow h.wf hgrow
  have hput := h.put i { c.store with heap } hgrow (Snapshot.WF.grow h.wf hgrow) h.listeners hstage
  rwa [hview, Function.update_eq_self] at hput

/-- A step of an add, a removal or a poll that is a swap finds the loaded snapshot
    still in place. -/
def Concurrent.Fresh (updates : Fin n → Update) (c : Concurrent n) (i : Fin n) : Prop :=
  ∀ old b answer, c.stage i = .built old b answer →
    c.store.current = old ∨ ∃ env, updates i = .reload env

variable {v₀ : View} {order : List (Fin n)}

/-- A load. Where the updater gives up on what it loaded, the whole of it happens
    here, also when it is the build that will notice. -/
theorem Simulated.load (h : Simulated cfg w running updates c s)
    (hserial : SerialBy (fun i => (updates i).onView cfg w) v₀ s order) (i : Fin n)
    (hst : c.stage i = .ready) (hans : s.answer i = none) :
    ∃ s' order', Simulated cfg w running updates (c.step cfg w updates i) s' ∧
      SerialBy (fun i => (updates i).onView cfg w) v₀ s' order' := by
  have hrefl := Heap.Grows.refl c.store.heap
  have hpools : c.store.view.pools = c.store.pool? := rfl
  simp only [Concurrent.step, hst]
  cases hd : (updates i).decide cfg w c.store.pool? with
  | inl a =>
    refine ⟨_, _, h.put i c.store hrefl h.wf h.listeners (.finished a),
      hserial.finish i a _ hans ?_⟩
    simp only [Updater.run, Update.onView, h.cell, hpools, hd, Option.getD_none]
  | inr plan =>
    dsimp only
    rcases hplan : plan.onView w c.store.view with ⟨a, v⟩
    cases v with
    | none =>
      refine ⟨_, _, h.put i c.store hrefl h.wf h.listeners (.rejected h.wf hplan),
        hserial.finish i a _ hans ?_⟩
      simp only [Updater.run, Update.onView, h.cell, hpools, hd, hplan, Option.getD_none]
    | some v =>
      refine ⟨s, order, h.stutter i hrefl ?_, hserial⟩
      rw [hans]
      exact .loaded h.wf h.listeners hd hplan

/-- A build. Nothing happens on views. -/
theorem Simulated.build (h : Simulated cfg w running updates c s) (i : Fin n) (old : Snapshot)
    (plan : Plan) (hst : c.stage i = .loaded old plan) :
    Simulated cfg w running updates (c.step cfg w updates i) s := by
  have hi := h.stages i
  simp only [Concurrent.step, hst] at hi ⊢
  generalize hans : s.answer i = answer at hi
  -- what the build returns is what the plan was bound to return
  have hspec := plan.build_spec w old c.store.heap
  rcases hb : plan.build w old c.store.heap with ⟨⟨a', b⟩, heap⟩
  rw [hb] at hspec
  cases hi with
  | loaded hwf hlisten hdecide hplan =>
    obtain ⟨hanswer, hview, hnew, hgrow⟩ := hspec hwf
    rw [hplan] at hanswer hview
    cases b with
    | none => cases hview
    | some b =>
      refine h.stutter i hgrow ?_
      rw [hans]
      refine .built (hwf.grow hgrow) (hnew b rfl) hlisten ?_
      rw [hwf.view_grow hgrow]
      simp only [Update.onView, hdecide, hplan]
      exact Prod.ext hanswer.symm hview.symm
  | rejected hwf hplan =>
    obtain ⟨hanswer, hview, -, hgrow⟩ := hspec hwf
    rw [hplan] at hanswer hview
    cases b with
    | some b => cases hview
    | none =>
      dsimp only at hanswer
      refine h.stutter i hgrow ?_
      rw [hans, ← hanswer]
      exact .finished a'

/-- A swap that is fresh. The whole updater happens here. -/
theorem Simulated.swap (h : Simulated cfg w running updates c s)
    (hnd : (running.map (·.name)).Nodup)
    (hserial : SerialBy (fun i => (updates i).onView cfg w) v₀ s order) (i : Fin n)
    (hfresh : c.Fresh updates i) (old : Snapshot) (b : Built) (a : Answer)
    (hst : c.stage i = .built old b a) :
    ∃ s' order', Simulated cfg w running updates (c.step cfg w updates i) s' ∧
      SerialBy (fun i => (updates i).onView cfg w) v₀ s' order' := by
  have hi := h.stages i
  simp only [Concurrent.step, hst] at hi ⊢
  generalize hans : s.answer i = answer at hi
  cases hi with
  | built hwf hnew hlisten hupdate =>
    have hnd' : (c.store.view.listeners.map (·.name)).Nodup :=
      (h.listeners.map _).nodup_iff.mpr hnd
    -- what the updater would do now is what it did to the snapshot it loaded
    have hnow : (updates i).onView cfg w c.store.view = (a, some (b.new.view c.store.heap)) := by
      rcases hfresh old b a hst with heq | ⟨env, henv⟩
      · rw [← hupdate, ← heq]
        rfl
      · rw [henv] at hupdate ⊢
        exact Update.onView_reload cfg w env _ _ _ a hnd' (hlisten.trans h.listeners.symm) hupdate
    have hperm : b.new.listeners.Perm c.store.current.listeners :=
      (updates i).onView_listeners cfg w _ _ a hnd' hnow
    refine ⟨_, _, h.put i (b.swap c.store) (Heap.Grows.refl _) hnew (hperm.trans h.listeners)
      (.finished a), hserial.finish i a _ hans ?_⟩
    simp only [Updater.run, h.cell, hnow]
    rfl

/-- One step of an interleaving, on views: nothing, or a whole updater. -/
theorem Simulated.step (h : Simulated cfg w running updates c s)
    (hnd : (running.map (·.name)).Nodup)
    (hserial : SerialBy (fun i => (updates i).onView cfg w) v₀ s order) (i : Fin n)
    (hfresh : c.Fresh updates i) :
    ∃ s' order', Simulated cfg w running updates (c.step cfg w updates i) s' ∧
      SerialBy (fun i => (updates i).onView cfg w) v₀ s' order' := by
  cases hst : c.stage i with
  | ready =>
    have hi := h.stages i
    rw [hst] at hi
    generalize hans : s.answer i = answer at hi
    cases hi
    exact h.load hserial i hst hans
  | loaded old plan => exact ⟨s, order, h.build i old plan hst, hserial⟩
  | built old b a => exact h.swap hnd hserial i hfresh old b a hst
  | finished a =>
    simp only [Concurrent.step, hst]
    exact ⟨s, order, h, hserial⟩

/-- Whole interleavings, on views. -/
theorem serialBy_of_fresh (cfg : Config) (w : Watcher) (updates : Fin n → Update) (σ : Store)
    (hwf : σ.WF) (hnd : (σ.current.listeners.map (·.name)).Nodup) (schedule : List (Fin n))
    (hfresh : List.Along (Concurrent.step cfg w updates) (Concurrent.Fresh updates)
      (Concurrent.init n σ) schedule) :
    ∃ s order, Simulated cfg w σ.current.listeners updates
        ((Concurrent.init n σ).exec cfg w updates schedule) s ∧
      SerialBy (fun i => (updates i).onView cfg w) σ.view s order := by
  refine List.foldl_along _ _ (fun c => ∃ s order,
    Simulated cfg w σ.current.listeners updates c s ∧
      SerialBy (fun i => (updates i).onView cfg w) σ.view s order) ?_ _ ?_ schedule hfresh
  · rintro c i ⟨s, order, hsim, hserial⟩ hfresh
    exact hsim.step hnd hserial i hfresh
  · exact ⟨_, [], ⟨hwf, rfl, List.Perm.refl _, fun _ => .ready⟩, SerialBy.init _ _⟩

end

/-! ## What the order says about single updates -/

/-- The backends of a pool in the current snapshot. -/
def membersOf (σ : Store) (poolName : String) : Option (List Backend) :=
  (σ.pool? poolName).map PoolState.members

/-- The updates after which an added backend may be gone. -/
def Update.MayDrop (poolName address : String) : Update → Prop
  | .removeBackend q a => q = poolName ∧ a = address
  | .reload _ => True
  | _ => False

/-- The updates after which a removed backend may be back. -/
def Update.MayBringBack (poolName address : String) : Update → Prop
  | .addBackend q body => q = poolName ∧ body.map (·.address) = some address
  | .reload _ => True
  | _ => False

/-- The updates after which a pool may hold another resolved set. -/
def Update.MayResolve (poolName : String) : Update → Prop
  | .poll p _ => p.poolName = poolName
  | .reload _ => True
  | _ => False

/-- The final state of an interleaving is that of running the updaters in this
    order, and so are the answers. In particular an added backend is there, a
    removed one is not, and a polled pool holds the resolved set, unless an update
    later in the order undoes it. -/
structure Serialized {n : Nat} (updates : Fin n → Update) (σ : Store) (c : Concurrent n)
    (order : List (Fin n)) : Prop where
  perm : order.Perm (List.finRange n)
  view : c.store.view = (runUpdates cfg w updates order σ).2.view
  answers : ∀ i a, (i, a) ∈ (runUpdates cfg w updates order σ).1 → c.stage i = .finished a
  added : ∀ before i after poolName req, order = before ++ i :: after →
    updates i = .addBackend poolName (some req) →
    c.stage i = .finished (.response { status := 201, error := none }) →
    (∀ j ∈ after, ¬ (updates j).MayDrop poolName req.address) →
    ∃ members, membersOf c.store poolName = some members ∧
      req.address ∈ members.map (·.address)
  removed : ∀ before i after poolName address, order = before ++ i :: after →
    updates i = .removeBackend poolName address →
    c.stage i = .finished (.response { status := 204, error := none }) →
    (∀ j ∈ after, ¬ (updates j).MayBringBack poolName address) →
    ∃ members, membersOf c.store poolName = some members ∧
      address ∉ members.map (·.address)
  polled : ∀ before i after p resolved, order = before ++ i :: after →
    updates i = .poll p (.ok resolved) → c.stage i = .finished (.polled .updated) →
    (∀ j ∈ after, ¬ (updates j).MayResolve p.poolName) →
    membersOf c.store p.poolName = some resolved

section

variable {cfg w} {n : Nat} {updates : Fin n → Update}

/-- What an update that is no reload leaves in a pool: what was there, or what it
    asked for. -/
theorem Update.keeps_members (u : Update) (v : View) (poolName : String)
    (P : Option (List Backend) → Prop) (hre : ∀ env, u ≠ .reload env)
    (hv : P ((v.pools poolName).map PoolState.members))
    (hupdate : ∀ pu a, u.decide cfg w v.pools = .inr (.update pu a) → pu.poolName = poolName →
      P (some pu.newBackends)) :
    P ((((u.onView cfg w).run v).2.pools poolName).map PoolState.members) := by
  simp only [Updater.run, Update.onView]
  cases hd : u.decide cfg w v.pools with
  | inl a => exact hv
  | inr plan =>
    cases plan with
    | rebuild newCfg env => exact absurd (u.decide_rebuild cfg w _ _ _ hd).1 (hre env)
    | update pu a =>
      simp only [Plan.onView, Option.getD_some, View.updatePool]
      by_cases hname : poolName = pu.poolName
      · subst hname
        rw [Function.update_self, Option.map_some, updatedPoolState_members]
        exact hupdate pu a hd rfl
      · rw [Function.update_of_ne hname]
        exact hv

variable {σ : Store} {c : Concurrent n} {running : List ListenerFingerprint} {v₀ : View}
  {s : State (Fin n) View Answer} {order before after : List (Fin n)} {i : Fin n}

/-- An update that succeeded asked for the backends of a pool, and what is true of
    these is true of the pool in the end if no later update spoils it. -/
private theorem members_in_the_end
    (h : SerialBy (fun i => (updates i).onView cfg w) v₀ s (before ++ i :: after)) (a : Answer)
    (hans : s.answer i = some a) (hsucc : a.isSuccess) (hre : ∀ env, updates i ≠ .reload env) :
    ∃ (v : View) (pu : PoolUpdate), (updates i).decide cfg w v.pools = .inr (.update pu a) ∧
      ∀ P : Option (List Backend) → Prop, P (some pu.newBackends) →
        (∀ j ∈ after, (∀ env, updates j ≠ .reload env) ∧
          ∀ (v : View) pu' a', P ((v.pools pu.poolName).map PoolState.members) →
            (updates j).decide cfg w v.pools = .inr (.update pu' a') →
            pu'.poolName = pu.poolName → P (some pu'.newBackends)) →
        P ((s.cell.pools pu.poolName).map PoolState.members) := by
  obtain ⟨v, hanswer, hcell⟩ := h.split
  rw [hans] at hanswer
  simp only [Updater.run, Update.onView, Option.some.injEq] at hanswer
  cases hd : (updates i).decide cfg w v.pools with
  | inl a' =>
    rw [hd] at hanswer
    dsimp only at hanswer
    rw [hanswer, (updates i).decide_inl cfg w _ _ hd] at hsucc
    cases hsucc
  | inr plan =>
    cases plan with
    | rebuild newCfg env => exact absurd ((updates i).decide_rebuild cfg w _ _ _ hd).1 (hre env)
    | update pu a' =>
      rw [hd] at hanswer
      obtain rfl : a = a' := hanswer
      refine ⟨v, pu, hd, fun P hP hafter => ?_⟩
      rw [hcell]
      refine runSerial_invariant _
        (fun v : View => P ((v.pools pu.poolName).map PoolState.members)) after
        (fun j hj v hv => ?_) _ ?_
      · obtain ⟨hre', hkeep⟩ := hafter j hj
        exact (updates j).keeps_members v pu.poolName P hre' hv fun pu' a' => hkeep v pu' a' hv
      · simp only [Updater.run, Update.onView, hd, Plan.onView, Option.getD_some, View.updatePool,
          Function.update_self, Option.map_some, updatedPoolState_members]
        exact hP

/-- A finished updater has its answer. -/
theorem Simulated.answer_of_finished (h : Simulated cfg w running updates c s) (i : Fin n)
    (a : Answer) (hi : c.stage i = .finished a) : s.answer i = some a := by
  have hs := h.stages i
  rw [hi] at hs
  generalize s.answer i = answer at hs ⊢
  cases hs
  rfl

section

-- no poller serves a pool the admin handlers may change
variable (hpolls : ∀ i p resolved, updates i = .poll p resolved → ¬ AdminPool cfg p.poolName)

include hpolls

private theorem added_in_the_end
    (h : SerialBy (fun i => (updates i).onView cfg w) v₀ s (before ++ i :: after))
    (poolName : String) (req : AddBackendRequest)
    (hi : updates i = .addBackend poolName (some req))
    (hans : s.answer i = some (.response { status := 201, error := none }))
    (hkeep : ∀ j ∈ after, ¬ (updates j).MayDrop poolName req.address) :
    ∃ members, (s.cell.pools poolName).map PoolState.members = some members ∧
      req.address ∈ members.map (·.address) := by
  obtain ⟨v, pu, hd, hend⟩ := members_in_the_end h _ hans rfl (by simp [hi])
  rw [hi] at hd
  obtain ⟨p, req', ps, hfind, hdisc, hbody, -, hplan⟩ := Update.decide_addBackend _ _ _ _ _ _ hd
  cases hbody
  cases hplan
  refine hend (fun m => ∃ members, m = some members ∧ req.address ∈ members.map (·.address))
    ⟨_, rfl, by simp⟩ fun j hj => ⟨fun env henv => hkeep j hj (by rw [henv]; trivial), ?_⟩
  rintro v pu' a' ⟨members, hmembers, hmem⟩ hd' hname
  rcases Update.decide_update _ _ _ _ _ _ hd' with
    ⟨req', ms, -, -, hms, hnew⟩ | ⟨address, ms, hj', -, hms, hnew⟩ | ⟨p', hj', hp'⟩
  · -- another add only appends
    obtain rfl : members = ms := by rwa [hname, hmembers, Option.some.injEq] at hms
    refine ⟨_, rfl, ?_⟩
    rw [hnew, List.map_append]
    exact List.mem_append_left _ hmem
  · -- a removal takes away another address
    obtain rfl : members = ms := by rwa [hname, hmembers, Option.some.injEq] at hms
    rw [hname] at hj'
    have hne : address ≠ req.address := fun heq => hkeep j hj (by rw [hj']; exact ⟨rfl, heq⟩)
    obtain ⟨b, hb, hbaddr⟩ := List.mem_map.mp hmem
    refine ⟨_, rfl, List.mem_map.mpr ⟨b, ?_, hbaddr⟩⟩
    rw [hnew, List.mem_filter]
    exact ⟨hb, by simpa [hbaddr] using hne.symm⟩
  · -- no poller serves this pool
    rw [hname] at hp'
    exact absurd ⟨p, hp' ▸ hfind, hdisc⟩ (hpolls j p' _ hj')

private theorem removed_in_the_end
    (h : SerialBy (fun i => (updates i).onView cfg w) v₀ s (before ++ i :: after))
    (poolName address : String) (hi : updates i = .removeBackend poolName address)
    (hans : s.answer i = some (.response { status := 204, error := none }))
    (hkeep : ∀ j ∈ after, ¬ (updates j).MayBringBack poolName address) :
    ∃ members, (s.cell.pools poolName).map PoolState.members = some members ∧
      address ∉ members.map (·.address) := by
  obtain ⟨v, pu, hd, hend⟩ := members_in_the_end h _ hans rfl (by simp [hi])
  rw [hi] at hd
  obtain ⟨p, ps, hfind, hdisc, -, hplan⟩ := Update.decide_removeBackend _ _ _ _ _ _ hd
  cases hplan
  refine hend (fun m => ∃ members, m = some members ∧ address ∉ members.map (·.address))
    ⟨_, rfl, by simp⟩ fun j hj => ⟨fun env henv => hkeep j hj (by rw [henv]; trivial), ?_⟩
  rintro v pu' a' ⟨members, hmembers, hmem⟩ hd' hname
  rcases Update.decide_update _ _ _ _ _ _ hd' with
    ⟨req', ms, hj', -, hms, hnew⟩ | ⟨address', ms, -, -, hms, hnew⟩ | ⟨p', hj', hp'⟩
  · -- an add appends another address
    obtain rfl : members = ms := by rwa [hname, hmembers, Option.some.injEq] at hms
    rw [hname] at hj'
    have hne : req'.address ≠ address := fun heq =>
      hkeep j hj (by rw [hj']; exact ⟨rfl, congrArg some heq⟩)
    refine ⟨_, rfl, ?_⟩
    rw [hnew, List.map_append, List.mem_append, not_or]
    exact ⟨hmem, by simpa using hne.symm⟩
  · -- another removal only takes away
    obtain rfl : members = ms := by rwa [hname, hmembers, Option.some.injEq] at hms
    refine ⟨_, rfl, fun hin => hmem ?_⟩
    rw [hnew] at hin
    exact (List.filter_sublist.map _).subset hin
  · -- no poller serves this pool
    rw [hname] at hp'
    exact absurd ⟨p, hp' ▸ hfind, hdisc⟩ (hpolls j p' _ hj')

private theorem polled_in_the_end
    (h : SerialBy (fun i => (updates i).onView cfg w) v₀ s (before ++ i :: after))
    (p : Poller) (resolved : List Backend) (hi : updates i = .poll p (.ok resolved))
    (hans : s.answer i = some (.polled .updated))
    (hkeep : ∀ j ∈ after, ¬ (updates j).MayResolve p.poolName) :
    (s.cell.pools p.poolName).map PoolState.members = some resolved := by
  obtain ⟨v, pu, hd, hend⟩ := members_in_the_end h _ hans rfl (by simp [hi])
  rw [hi] at hd
  obtain ⟨R, hR, hplan⟩ := Update.decide_poll _ _ _ _ _ _ hd
  cases hR
  cases hplan
  refine hend (fun m => m = some resolved) rfl fun j hj =>
    ⟨fun env henv => hkeep j hj (by rw [henv]; trivial), ?_⟩
  intro v pu' a' _ hd' hname
  rcases Update.decide_update _ _ _ _ _ _ hd' with
    ⟨req', ms, -, hadmin, -, -⟩ | ⟨address', ms, -, hadmin, -, -⟩ | ⟨p', hj', hp'⟩
  · rw [hname] at hadmin
    exact absurd hadmin (hpolls i p _ hi)
  · rw [hname] at hadmin
    exact absurd hadmin (hpolls i p _ hi)
  · rw [hname] at hp'
    exact absurd (by rw [hj']; exact hp') (hkeep j hj)

/-- An interleaving that has come to its end, from views back to the store. -/
theorem Simulated.serialized (h : Simulated cfg w running updates c s) (hwf : σ.WF)
    (hserial : SerialBy (fun i => (updates i).onView cfg w) σ.view s order)
    (hdone : ∀ i, ∃ a, c.stage i = .finished a) : Serialized cfg w updates σ c order := by
  obtain ⟨hanswers, hview⟩ := runUpdates_onView cfg w updates order σ hwf
  have hcell : ∀ q, membersOf c.store q = (s.cell.pools q).map PoolState.members := by
    intro q
    rw [h.cell]
    rfl
  refine ⟨?_, ?_, ?_, ?_, ?_, ?_⟩
  · -- all have finished, so all have their place in the order
    refine (List.perm_ext_iff_of_nodup hserial.nodup (List.nodup_finRange n)).mpr fun i => ?_
    obtain ⟨a, ha⟩ := hdone i
    rw [hserial.answered, h.answer_of_finished i a ha]
    simp
  · rw [hview, hserial.cell, h.cell]
  · intro i a hi
    rw [hanswers] at hi
    obtain ⟨a', ha'⟩ := hdone i
    have hsome := hserial.answers i a hi
    rw [h.answer_of_finished i a' ha'] at hsome
    rw [ha', Option.some.inj hsome]
  · rintro before i after q req rfl hi hstage hkeep
    rw [hcell]
    exact added_in_the_end hpolls hserial q req hi (h.answer_of_finished i _ hstage) hkeep
  · rintro before i after q address rfl hi hstage hkeep
    rw [hcell]
    exact removed_in_the_end hpolls hserial q address hi (h.answer_of_finished i _ hstage) hkeep
  · rintro before i after p resolved rfl hi hstage hkeep
    rw [hcell]
    exact polled_in_the_end hpolls hserial p resolved hi (h.answer_of_finished i _ hstage) hkeep

end

end

/-! ## From startup on -/

/-- The running listeners have unique names, whatever has happened since startup. -/
theorem System.exec_listener_names (s : System) (ops : List Op)
    (h : (s.store.current.listeners.map (·.name)).Nodup) :
    ((s.exec ops).store.current.listeners.map (·.name)).Nodup := by
  induction ops generalizing s with
  | nil => exact h
  | cons op rest ih =>
    refine ih (s.step op) ?_
    by_cases hre : ∃ env, op = .reload env
    · obtain ⟨env, rfl⟩ := hre
      cases he : s.watcher.reloadError env s.store.current.listeners with
      | some e =>
        have hsame : (s.step (.reload env)).store.current.listeners = s.store.current.listeners :=
          congrArg View.listeners (s.step_reload_of_error env e he)
        rw [hsame]
        exact h
      | none =>
        obtain ⟨newCfg, hload, hview⟩ := s.step_reload_of_ok env he
        have hnew : (s.step (.reload env)).store.current.listeners =
            newCfg.listeners.map fingerprint := congrArg View.listeners hview
        rw [hnew, List.map_map]
        exact (s.watcher.host.load_accepted env.file newCfg hload).listener_names_nodup
    · rw [(s.step_listeners op fun env henv => hre ⟨env, henv⟩).1]
      exact h

/-- A poller's pool is not one the admin handlers may change. -/
theorem not_adminPool_of_poller (host : Host) (file : Except String Bytes) (env : BuildEnv)
    (now : Circuitbreaker.Time) (s₀ : System) (hstart : startup host file env now = .ok s₀)
    (p : Poller) (hp : p ∈ s₀.pollers) : ¬ AdminPool s₀.cfg p.poolName := by
  obtain ⟨hload, -, -, -, -, hpollers⟩ := startup_spec host file env now s₀ hstart
  obtain ⟨hmem, hdisc, hnew⟩ := startPollers_spec s₀.store s₀.cfg.pools s₀.pollers hpollers p hp
  have hname : p.poolName = p.cfg.name := by rw [hnew]; rfl
  rintro ⟨pc, hfind, hnone⟩
  obtain ⟨hpc, hpcname⟩ := findPoolConfig_spec s₀.cfg p.poolName pc hfind
  -- pool names are unique, so it is the poller's own configuration
  have hsame : pc = p.cfg := List.inj_on_of_nodup_map
    (host.load_accepted file s₀.cfg hload).pool_names_nodup hpc hmem (hpcname.trans hname)
  rw [← hsame, hnone] at hdisc
  exact nomatch hdisc

/-- No lost update. In a process that has been started and has run for a while,
    take any number of admin requests, poller runs and reloads, and any
    interleaving of their loads, builds and swaps in which every swap of an add, a
    removal or a poll finds the snapshot its updater loaded still in place. When
    all have finished, the result is that of running them one after another in
    some order. -/
theorem fresh_swaps_serialize (host : Host) (file : Except String Bytes) (env : BuildEnv)
    (now : Circuitbreaker.Time) (s₀ : System) (ops : List Op) {n : Nat} (updates : Fin n → Update)
    (schedule : List (Fin n)) (hstart : startup host file env now = .ok s₀)
    (hpolls : ∀ i p resolved, updates i = .poll p resolved →
      ∃ p₀ ∈ s₀.pollers, p₀.poolName = p.poolName ∧ p₀.cfg = p.cfg)
    (hfresh : List.Along (Concurrent.step s₀.cfg s₀.watcher updates) (Concurrent.Fresh updates)
      (Concurrent.init n (s₀.exec ops).store) schedule)
    (hdone : ∀ i, ∃ a, ((Concurrent.init n (s₀.exec ops).store).exec s₀.cfg s₀.watcher updates
      schedule).stage i = .finished a) :
    ∃ order, Serialized s₀.cfg s₀.watcher updates (s₀.exec ops).store
      ((Concurrent.init n (s₀.exec ops).store).exec s₀.cfg s₀.watcher updates schedule) order := by
  obtain ⟨hload, -, hwf₀, hview, -, -⟩ := startup_spec host file env now s₀ hstart
  have hwf := s₀.exec_wf ops hwf₀
  have hnd₀ : (s₀.store.current.listeners.map (·.name)).Nodup := by
    have hlisten : s₀.store.current.listeners = s₀.cfg.listeners.map fingerprint :=
      congrArg View.listeners hview
    rw [hlisten, List.map_map]
    exact (host.load_accepted file s₀.cfg hload).listener_names_nodup
  have hnd := s₀.exec_listener_names ops hnd₀
  obtain ⟨s, order, hsim, hserial⟩ :=
    serialBy_of_fresh s₀.cfg s₀.watcher updates _ hwf hnd schedule hfresh
  refine ⟨order, hsim.serialized (fun i p resolved hi => ?_) hwf hserial hdone⟩
  obtain ⟨p₀, hp₀, hname, -⟩ := hpolls i p resolved hi
  rw [← hname]
  exact not_adminPool_of_poller host file env now s₀ hstart p₀ hp₀

/-- Two adds of different backends to one pool. -/
def twoAdds (i : Fin 2) : Update :=
  .addBackend "web" (some ⟨if i = 0 then "10.0.0.2:8080" else "10.0.0.3:8080", 1⟩)

private theorem orders_of_two (order : List (Fin 2)) (h : order.Perm (List.finRange 2)) :
    order = [0, 1] ∨ order = [1, 0] := by
  obtain ⟨i, j, rfl⟩ := List.length_eq_two.mp h.length_eq
  revert i j
  decide

/-- When both adds load before either swaps, both are answered 201, the backend of
    the first is gone, and no order explains that. -/
theorem concurrent_adds_lose_backend :
    ∃ s₀, startup (Sample.host [plainConfig]) (.ok [0])
        (Sample.env fun _ => .error "no such host") 0 = .ok s₀ ∧
      ∃ c, c = (Concurrent.init 2 s₀.store).exec s₀.cfg s₀.watcher twoAdds [0, 1, 0, 1, 0, 1] ∧
        (∀ i, c.stage i = .finished (.response { status := 201, error := none })) ∧
        membersOf c.store "web" = some [⟨"10.0.0.1:8080", 1⟩, ⟨"10.0.0.3:8080", 1⟩] ∧
        ∀ order : List (Fin 2), order.Perm (List.finRange 2) →
          c.store.view ≠ (runUpdates s₀.cfg s₀.watcher twoAdds order s₀.store).2.view := by
  refine ⟨_, rfl, _, rfl, Fin.forall_fin_two.mpr ⟨rfl, rfl⟩, rfl, ?_⟩
  intro order hperm hview
  -- one after another, both backends are there
  have hpool := congrArg (fun v : View => (v.pools "web").map PoolState.members) hview
  rcases orders_of_two order hperm with rfl | rfl
  · exact absurd hpool (by decide)
  · exact absurd hpool (by decide)

/-- The theorem at an add that runs from beginning to end while a reload is
    between its load and its build. -/
theorem add_within_reload_serializes :
    ∃ s₀, startup (Sample.host [plainConfig]) (.ok [0])
        (Sample.env fun _ => .error "no such host") 0 = .ok s₀ ∧
      ∃ updates : Fin 2 → Update,
        updates 0 = .addBackend "web" (some ⟨"10.0.0.2:8080", 1⟩) ∧
        updates 1 = .reload (Sample.reloadEnv 0 fun _ => .error "no such host") ∧
        ∃ order, Serialized s₀.cfg s₀.watcher updates s₀.store
          ((Concurrent.init 2 s₀.store).exec s₀.cfg s₀.watcher updates [1, 0, 0, 0, 1, 1])
          order := by
  refine ⟨_, rfl, fun i => if i = 0 then .addBackend "web" (some ⟨"10.0.0.2:8080", 1⟩)
    else .reload (Sample.reloadEnv 0 fun _ => .error "no such host"), rfl, rfl,
    fresh_swaps_serialize (Sample.host [plainConfig]) (.ok [0])
      (Sample.env fun _ => .error "no such host") 0 _ [] _ _ rfl ?_ ?_ ?_⟩
  · exact Fin.forall_fin_two.mpr ⟨(fun _ _ h => nomatch h), fun _ _ h => nomatch h⟩
  · refine ⟨?_, ?_, ?_, ?_, ?_, ?_, trivial⟩
    · exact fun _ _ _ h => nomatch h
    · exact fun _ _ _ h => nomatch h
    · exact fun _ _ _ h => nomatch h
    · rintro old b answer h
      cases h
      exact .inl rfl
    · exact fun _ _ _ h => nomatch h
    · exact fun _ _ _ _ => .inr ⟨_, rfl⟩
  · exact Fin.forall_fin_two.mpr ⟨⟨_, rfl⟩, ⟨_, rfl⟩⟩

end HootLb
