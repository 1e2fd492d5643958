import HootLb.ForStd.AtomicCell
import HootLb.Native.Concurrent
import HootLb.Spec.ListenerDiff
import HootLb.Spec.StoreView

/-!
# Updaters as functions of what they load

An admin request, a poller run or a reload loads the snapshot once. This module
takes the parts of an updater together again: running them one after the other is
the handler, `poll` or `checkAndReload`; on views the result is a function of the
view that was loaded, which gives an `AtomicCell` updater; and no updater changes
the listeners, except for their order.

## Key results

- `Concurrent.solo`: the three steps, undisturbed, are the function they are taken from
- `Update.decide_update`: which pool an updater changes, and to what
- `Update.run_onView`, `runUpdates_onView`: updaters on views
- `Update.onView_listeners`, `Update.onView_reload`: listeners
-/

namespace HootLb

open Config HootLb.Runtime HootLb.Reload HootLb.Admin AtomicCell

variable (cfg : Config) (w : Watcher)

/-! ## The parts of an updater -/

/-- A plan carried out undisturbed. -/
def Plan.run (plan : Plan) (σ : Store) : Answer × Store :=
  match plan.build w σ.current σ.heap with
  | ((answer, none), heap) => (answer, { σ with heap })
  | ((answer, some b), heap) => (answer, b.swap { σ with heap })

/-- The function that runs an updater is put together from its parts. -/
theorem Update.run_eq (u : Update) (σ : Store) :
    u.run cfg w σ =
      match u.decide cfg w σ.pool? with
      | .inl answer => (answer, σ)
      | .inr plan => plan.run w σ := by
  cases u with
  | addBackend poolName body =>
    simp only [Update.run, Update.decide, Admin.addBackend]
    cases addBackendCheck cfg poolName body with
    | error r => rfl
    | ok c =>
      dsimp only
      cases addBackendPlan c.2 (σ.pool? poolName) <;> rfl
  | removeBackend poolName address =>
    simp only [Update.run, Update.decide, Admin.removeBackend]
    cases removeBackendCheck cfg poolName with
    | error r => rfl
    | ok poolCfg =>
      dsimp only
      cases removeBackendPlan address (σ.pool? poolName) <;> rfl
  | poll p resolved =>
    simp only [Update.run, Update.decide, Poller.poll]
    cases p.pollCheck resolved <;> rfl
  | reload env =>
    simp only [Update.run, Update.decide, Watcher.checkAndReload]
    cases w.host.load env.file with
    | error e => rfl
    | ok newCfg =>
      -- `checkAndReload` also keeps the heap of a rejected build
      simp only [Plan.run, Plan.build]
      obtain ⟨r, heap⟩ := w.rebuild newCfg env σ.current σ.heap
      cases r <;> rfl

/-- The steps of an updater with nothing in between are the function they are
    taken from. -/
theorem Concurrent.solo {n : Nat} (updates : Fin n → Update) (c : Concurrent n) (i : Fin n)
    (hready : c.stage i = .ready) :
    (c.exec cfg w updates [i, i, i]).store = ((updates i).run cfg w c.store).2 ∧
      (c.exec cfg w updates [i, i, i]).stage i =
        .finished ((updates i).run cfg w c.store).1 := by
  rw [Update.run_eq]
  simp only [Concurrent.exec, List.foldl_cons, List.foldl_nil]
  cases hd : (updates i).decide cfg w c.store.pool? with
  -- finished at the load: the other two steps do nothing
  | inl answer => simp [Concurrent.step, hready, hd, Concurrent.put]
  | inr plan =>
    simp only [Plan.run]
    have hload : c.step cfg w updates i = c.put i (.loaded c.store.current plan) c.store := by
      simp only [Concurrent.step, hready, hd]
    rw [hload]
    rcases hb : plan.build w c.store.current c.store.heap with ⟨⟨answer, b⟩, heap⟩
    cases b <;> simp [Concurrent.step, Concurrent.put, hb]

/-! ### What an updater decides -/

/-- The plan of an add that goes on. -/
theorem Update.decide_addBackend (poolName : String) (body : Option AddBackendRequest)
    (pools : String → Option PoolState) (plan : Plan)
    (h : (Update.addBackend poolName body).decide cfg w pools = .inr plan) :
    ∃ p req ps, findPoolConfig cfg poolName = some p ∧ p.discovery = none ∧ body = some req ∧
      pools poolName = some ps ∧ plan = .update
        ⟨poolName, ps.members ++ [{ address := req.address, weight := req.weight }], p⟩
        (.response { status := 201, error := none }) := by
  simp only [Update.decide] at h
  split at h
  · exact nomatch h
  · rename_i p req hcheck
    split at h
    · exact nomatch h
    · rename_i newBackends hplan
      obtain ⟨hfind, hdisc, hbody⟩ := Admin.addBackendCheck_ok _ _ _ _ _ hcheck
      obtain ⟨ps, hps, -, rfl⟩ := Admin.addBackendPlan_ok _ _ _ hplan
      cases h
      exact ⟨p, req, ps, hfind, hdisc, hbody, hps, rfl⟩

/-- The plan of a removal that goes on. -/
theorem Update.decide_removeBackend (poolName address : String)
    (pools : String → Option PoolState) (plan : Plan)
    (h : (Update.removeBackend poolName address).decide cfg w pools = .inr plan) :
    ∃ p ps, findPoolConfig cfg poolName = some p ∧ p.discovery = none ∧
      pools poolName = some ps ∧ plan = .update
        ⟨poolName, ps.members.filter fun b => b.address ≠ address, p⟩
        (.response { status := 204, error := none }) := by
  simp only [Update.decide] at h
  split at h
  · exact nomatch h
  · rename_i p hcheck
    split at h
    · exact nomatch h
    · rename_i newBackends hplan
      obtain ⟨hfind, hdisc⟩ := Admin.checkPoolConfig_ok _ _ _ _ hcheck
      obtain ⟨ps, hps, rfl⟩ := Admin.removeBackendPlan_ok _ _ _ hplan
      cases h
      exact ⟨p, ps, hfind, hdisc, hps, rfl⟩

/-- The plan of a poll that goes on. -/
theorem Update.decide_poll (p : Poller) (resolved : Except String (List Backend))
    (pools : String → Option PoolState) (plan : Plan)
    (h : (Update.poll p resolved).decide cfg w pools = .inr plan) :
    ∃ R, resolved = .ok R ∧ plan = .update ⟨p.poolName, R, p.cfg⟩ (.polled .updated) := by
  simp only [Update.decide] at h
  split at h
  · exact nomatch h
  · rename_i R hcheck
    cases h
    exact ⟨R, (Poller.pollCheck_ok _ _ _ hcheck).1, rfl⟩

/-- The only updater that ends in a full build is a reload. -/
theorem Update.decide_rebuild (u : Update) (pools : String → Option PoolState) (newCfg : Config)
    (env : ReloadEnv) (h : u.decide cfg w pools = .inr (.rebuild newCfg env)) :
    u = .reload env ∧ w.host.load env.file = .ok newCfg := by
  cases u with
  | addBackend poolName body =>
    obtain ⟨_, _, _, -, -, -, -, hplan⟩ := Update.decide_addBackend cfg w _ _ _ _ h
    exact nomatch hplan
  | removeBackend poolName address =>
    obtain ⟨_, _, -, -, -, hplan⟩ := Update.decide_removeBackend cfg w _ _ _ _ h
    exact nomatch hplan
  | poll p resolved =>
    obtain ⟨_, -, hplan⟩ := Update.decide_poll cfg w _ _ _ _ h
    exact nomatch hplan
  | reload env' =>
    simp only [Update.decide] at h
    split at h
    · exact nomatch h
    · rename_i hload
      cases h
      exact ⟨rfl, hload⟩

/-- A pool the admin handlers may change. -/
def AdminPool (poolName : String) : Prop :=
  ∃ p, findPoolConfig cfg poolName = some p ∧ p.discovery = none

/-- The updates that change one pool, and the backends they ask for. -/
theorem Update.decide_update (u : Update) (pools : String → Option PoolState) (pu : PoolUpdate)
    (a : Answer) (h : u.decide cfg w pools = .inr (.update pu a)) :
    (∃ req members, u = .addBackend pu.poolName (some req) ∧ AdminPool cfg pu.poolName ∧
        (pools pu.poolName).map PoolState.members = some members ∧
        pu.newBackends = members ++ [{ address := req.address, weight := req.weight }]) ∨
      (∃ address members, u = .removeBackend pu.poolName address ∧ AdminPool cfg pu.poolName ∧
        (pools pu.poolName).map PoolState.members = some members ∧
        pu.newBackends = members.filter fun b => b.address ≠ address) ∨
      ∃ p, u = .poll p (.ok pu.newBackends) ∧ p.poolName = pu.poolName := by
  cases u with
  | addBackend poolName body =>
    obtain ⟨p, req, ps, hfind, hdisc, rfl, hps, hplan⟩ := Update.decide_addBackend cfg w _ _ _ _ h
    cases hplan
    exact .inl ⟨req, ps.members, rfl, ⟨p, hfind, hdisc⟩, by rw [hps]; rfl, rfl⟩
  | removeBackend poolName address =>
    obtain ⟨p, ps, hfind, hdisc, hps, hplan⟩ := Update.decide_removeBackend cfg w _ _ _ _ h
    cases hplan
    exact .inr (.inl ⟨address, ps.members, rfl, ⟨p, hfind, hdisc⟩, by rw [hps]; rfl, rfl⟩)
  | poll p resolved =>
    obtain ⟨R, rfl, hplan⟩ := Update.decide_poll cfg w _ _ _ _ h
    cases hplan
    exact .inr (.inr ⟨p, rfl, rfl⟩)
  | reload env =>
    simp only [Update.decide] at h
    split at h <;> exact nomatch h

/-- The answers of updaters that installed something. -/
def Answer.isSuccess : Answer → Bool
  | .response r => r.error.isNone
  | .polled o => o = .updated
  | .reloaded why => why.isNone

/-- An updater that finishes early has not succeeded. -/
theorem Update.decide_inl (u : Update) (pools : String → Option PoolState) (a : Answer)
    (h : u.decide cfg w pools = .inl a) : a.isSuccess = false := by
  cases u with
  | addBackend poolName body =>
    simp only [Update.decide] at h
    split at h
    · rename_i hcheck
      cases h
      exact Admin.addBackendCheck_error _ _ _ _ hcheck
    · split at h
      · rename_i hplan
        cases h
        exact Admin.addBackendPlan_error _ _ _ hplan
      · exact nomatch h
  | removeBackend poolName address =>
    simp only [Update.decide] at h
    split at h
    · rename_i hcheck
      cases h
      exact Admin.checkPoolConfig_error _ _ _ _ hcheck
    · split at h
      · rename_i hplan
        cases h
        exact Admin.removeBackendPlan_error _ _ _ hplan
      · exact nomatch h
  | poll p resolved =>
    simp only [Update.decide, Poller.pollCheck] at h
    cases resolved with
    | error why => cases h; rfl
    | ok R =>
      dsimp only at h
      cases hsame : backendSetsEqual p.lastBackends R with
      | true => rw [hsame] at h; cases h; rfl
      | false => rw [hsame] at h; exact nomatch h
  | reload env =>
    simp only [Update.decide] at h
    split at h
    · cases h; rfl
    · exact nomatch h

/-! ## Updaters on views -/

/-- What a plan makes of the view it was made from. -/
def Plan.onView : Plan → Updater View Answer
  | .update u answer, v => (answer, some (v.updatePool u.poolName u.newBackends u.cfg))
  | .rebuild newCfg env, v =>
    match w.rebuildError newCfg env v.listeners with
    | some e => (.reloaded (some e), none)
    | none => (.reloaded none, some (View.build env.build newCfg))

/-- What an updater makes of the view it loads. -/
def Update.onView (u : Update) : Updater View Answer := fun v =>
  match u.decide cfg w v.pools with
  | .inl answer => (answer, none)
  | .inr plan => plan.onView w v

/-- A build does on the heap what the plan does on views. -/
theorem Plan.build_spec (plan : Plan) (old : Snapshot) (heap : Heap) (h : old.WF heap) :
    (plan.build w old heap).1.1 = (plan.onView w (old.view heap)).1 ∧
      ((plan.build w old heap).1.2.map fun b => b.new.view (plan.build w old heap).2) =
        (plan.onView w (old.view heap)).2 ∧
      (∀ b, (plan.build w old heap).1.2 = some b → b.new.WF (plan.build w old heap).2) ∧
      heap.Grows (plan.build w old heap).2 := by
  cases plan with
  | update u answer =>
    refine ⟨rfl, ?_, ?_, updatePoolBackends_grows old heap u.poolName u.newBackends u.cfg⟩
    · exact congrArg some (updatePoolBackends_view old heap u.poolName u.newBackends u.cfg h)
    · intro b hb
      cases hb
      exact updatePoolBackends_wf old heap u.poolName u.newBackends u.cfg h
  | rebuild newCfg env =>
    have hspec := w.rebuild_spec newCfg env old heap
    simp only [Plan.build, Plan.onView]
    rw [show (old.view heap).listeners = old.listeners from rfl]
    cases he : w.rebuildError newCfg env old.listeners with
    | some e =>
      rw [he] at hspec
      obtain ⟨certs, hlen, hrun⟩ := hspec
      rw [hrun]
      exact ⟨rfl, rfl, (fun b hb => nomatch hb), ⟨[], by simp⟩, Nat.le_of_eq hlen.symm⟩
    | none =>
      rw [he] at hspec
      obtain ⟨new, heap', hrun, hview, hwf, hgrow⟩ := hspec
      rw [hrun]
      refine ⟨rfl, congrArg some hview, fun b hb => ?_, hgrow⟩
      cases hb
      exact hwf

/-- An updater that runs alone does on the store what it does on views. -/
theorem Update.run_onView (u : Update) (σ : Store) (h : σ.WF) :
    (u.run cfg w σ).1 = ((u.onView cfg w).run σ.view).1 ∧
      (u.run cfg w σ).2.view = ((u.onView cfg w).run σ.view).2 ∧ (u.run cfg w σ).2.WF := by
  rw [Update.run_eq]
  simp only [Updater.run, Update.onView]
  rw [show σ.view.pools = σ.pool? from rfl]
  cases u.decide cfg w σ.pool? with
  | inl answer => exact ⟨rfl, rfl, h⟩
  | inr plan =>
    obtain ⟨hanswer, hview, hwf, hgrow⟩ := plan.build_spec w σ.current σ.heap h
    simp only [Plan.run]
    rw [show σ.view = σ.current.view σ.heap from rfl, ← hanswer, ← hview]
    rcases hb : plan.build w σ.current σ.heap with ⟨⟨answer, b⟩, heap⟩
    rw [hb] at hwf hgrow
    cases b with
    -- without a swap only the heap has grown
    | none => exact ⟨rfl, Snapshot.WF.view_grow h hgrow, Snapshot.WF.grow h hgrow⟩
    | some b => exact ⟨rfl, rfl, hwf b rfl⟩

/-- Running updaters one after another, on the store and on views. -/
theorem runUpdates_onView {n : Nat} (updates : Fin n → Update) (order : List (Fin n)) (σ : Store)
    (h : σ.WF) :
    (runUpdates cfg w updates order σ).1 =
        (runSerial (fun i => (updates i).onView cfg w) order σ.view).1 ∧
      (runUpdates cfg w updates order σ).2.view =
        (runSerial (fun i => (updates i).onView cfg w) order σ.view).2 := by
  induction order generalizing σ with
  | nil => exact ⟨rfl, rfl⟩
  | cons i rest ih =>
    obtain ⟨hanswer, hview, hwf⟩ := (updates i).run_onView cfg w σ h
    obtain ⟨hanswers, hfinal⟩ := ih ((updates i).run cfg w σ).2 hwf
    simp only [runUpdates, runSerial]
    rw [← hanswer, ← hview]
    exact ⟨congrArg _ hanswers, hfinal⟩

/-! ### Listeners -/

/-- A configuration that the running listeners let through lists the same
    listeners, and is let through by every arrangement of them. -/
private theorem rebuildError_perm (newCfg : Config) (env : ReloadEnv)
    (old running : List ListenerFingerprint) (hload : w.host.load env.file = .ok newCfg)
    (hnd : (running.map (·.name)).Nodup) (hperm : old.Perm running)
    (h : w.rebuildError newCfg env old = none) :
    (newCfg.listeners.map fingerprint).Perm running ∧
      w.rebuildError newCfg env running = none := by
  have hnew : ((newCfg.listeners.map fingerprint).map (·.name)).Nodup := by
    rw [List.map_map]
    exact (w.host.load_accepted env.file newCfg hload).listener_names_nodup
  have hold : (old.map (·.name)).Nodup := (hperm.map _).nodup_iff.mpr hnd
  unfold Watcher.rebuildError at h ⊢
  cases hdiff : diffListeners old (newCfg.listeners.map fingerprint) with
  | some change => rw [hdiff] at h; exact nomatch h
  | none =>
    have hsame := ((diffListeners_eq_none_iff_perm _ _ hold hnew).mp hdiff).trans hperm
    rw [(diffListeners_eq_none_iff_perm _ _ hnd hnew).mpr hsame]
    rw [hdiff] at h
    exact ⟨hsame, h⟩

/-- No updater changes the listeners, except for their order. -/
theorem Update.onView_listeners (u : Update) (v v' : View) (a : Answer)
    (hnd : (v.listeners.map (·.name)).Nodup) (h : u.onView cfg w v = (a, some v')) :
    v'.listeners.Perm v.listeners := by
  unfold Update.onView at h
  split at h
  · exact nomatch h
  · rename_i plan hd
    cases plan with
    | update pu answer =>
      cases h
      exact List.Perm.refl _
    | rebuild newCfg env =>
      obtain ⟨-, hload⟩ := u.decide_rebuild cfg w v.pools newCfg env hd
      simp only [Plan.onView] at h
      split at h
      · exact nomatch h
      · rename_i he
        cases h
        exact (rebuildError_perm w newCfg env _ _ hload hnd (List.Perm.refl _) he).1

/-- A reload that completes does the same to every view with these listeners. -/
theorem Update.onView_reload (env : ReloadEnv) (old now v' : View) (a : Answer)
    (hnd : (now.listeners.map (·.name)).Nodup) (hperm : old.listeners.Perm now.listeners)
    (h : (Update.reload env).onView cfg w old = (a, some v')) :
    (Update.reload env).onView cfg w now = (a, some v') := by
  simp only [Update.onView, Update.decide] at h ⊢
  cases hload : w.host.load env.file with
  | error e => rw [hload] at h; exact nomatch h
  | ok newCfg =>
    rw [hload] at h
    simp only [Plan.onView] at h ⊢
    cases he : w.rebuildError newCfg env old.listeners with
    | some e => rw [he] at h; exact nomatch h
    | none =>
      rw [he] at h
      rw [(rebuildError_perm w newCfg env _ _ hload hnd hperm he).2]
      exact h

end HootLb
