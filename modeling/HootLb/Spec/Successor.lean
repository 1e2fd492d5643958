import HootLb.ForStd.Trace
import HootLb.Native.Restart

/-!
# Successors of a process

`Trigger` excludes other calls while it runs, and only then: after a handoff has
succeeded the lock is free again, while the signal handler and requests already
accepted live on until the process has drained. This module shows that a process has
at most one successor as long as no call gets the lock after a handoff, unless it came
too late to find an open listener.

## Key results

- `Process.step_moves`: everything a step can do to the calls, the children and the lock
- `Process.Guarded.step`: the invariant
- `at_most_one_successor`: whole runs
-/

namespace HootLb.Restart

open Config

/-- The call is between the lock and the return of `Trigger`. -/
def Phase.holdsLock : Phase → Bool
  | .holding _ | .waiting _ => true
  | _ => false

/-- Some child has signalled that it is ready. -/
def Process.HandedOff (p : Process) : Prop := ∃ c ∈ p.children, c.state = .ready

/-! ## What a step can do -/

/-- The effect of an action on the calls, the children and the lock. -/
inductive Process.Moves (p : Process) (a : Action) (p' : Process) : Prop
  | idle (hphase : p'.phase? = p.phase?) (hchildren : p'.children = p.children)
      (hlock : p'.inProgress = p.inProgress)
  | arrive (k : Nat) (descs : List (ListenerDesc Socket)) (hk : p.phase? k = none)
      (hphase : p'.phase? = Function.update p.phase? k (some (.gathered descs)))
      (hchildren : p'.children = p.children) (hlock : p'.inProgress = p.inProgress)
  | refuse (k : Nat) (descs : List (ListenerDesc Socket)) (err : Message)
      (hk : p.phase? k = some (.gathered descs))
      (hphase : p'.phase? = Function.update p.phase? k (some (.returned (some err))))
      (hchildren : p'.children = p.children) (hlock : p'.inProgress = p.inProgress)
  | lock (k : Nat) (descs : List (ListenerDesc Socket)) (ha : a = .tryLock k)
      (hk : p.phase? k = some (.gathered descs)) (hfree : p.inProgress = false)
      (hphase : p'.phase? = Function.update p.phase? k (some (.holding descs)))
      (hchildren : p'.children = p.children) (hlock : p'.inProgress = true)
  | fail (k : Nat) (descs : List (ListenerDesc Socket)) (err : Message)
      (hk : p.phase? k = some (.holding descs))
      (hphase : p'.phase? = Function.update p.phase? k (some (.returned (some err))))
      (hchildren : p'.children = p.children) (hlock : p'.inProgress = false)
  | start (k : Nat) (descs : List (ListenerDesc Socket)) (cmd : Cmd)
      (hk : p.phase? k = some (.holding descs)) (hdescs : descs ≠ [])
      (hphase : p'.phase? = Function.update p.phase? k (some (.waiting p.children.length)))
      (hchildren : p'.children = p.children ++ [{ cmd, state := .started }])
      (hlock : p'.inProgress = p.inProgress)
  | settle (k child : Nat) (r : Readiness) (hk : p.phase? k = some (.waiting child))
      (hphase : p'.phase? = Function.update p.phase? k (some (.returned r.error)))
      (hchildren : p'.children = p.children.modify child fun c =>
        { c with state := if r.error.isNone then .ready else .killed })
      (hlock : p'.inProgress = false)
  | finish (k : Nat) (err : Option Message) (hk : p.phase? k = some (.returned err))
      (hphase : p'.phase? = Function.update p.phase? k (some .finished))
      (hchildren : p'.children = p.children) (hlock : p'.inProgress = p.inProgress)

namespace Process

variable {p : Process}

/-- Moving a call on changes its phase only. -/
theorem phase?_setPhase (k : Nat) (old new : Phase) (hk : p.phase? k = some old) :
    (p.setPhase k new).phase? = Function.update p.phase? k (some new) := by
  funext j
  unfold phase? setPhase at *
  rw [List.getElem?_modify]
  obtain ⟨c, hc, -⟩ := Option.map_eq_some_iff.mp hk
  by_cases hj : j = k
  · subst hj
    simp [hc]
  · rw [Function.update_of_ne hj]
    simp [Ne.symm hj]

/-- A call that arrives is the last one. -/
theorem phase?_append (p' : Process) (c : Call) (h : p'.calls = p.calls ++ [c]) :
    p'.phase? = Function.update p.phase? p.calls.length (some c.phase) := by
  funext j
  unfold phase?
  rw [h]
  by_cases hj : j = p.calls.length
  · subst hj
    simp
  · rw [Function.update_of_ne hj]
    by_cases hlt : j < p.calls.length
    · rw [List.getElem?_append_left hlt]
    · have hlen : (p.calls ++ [c]).length ≤ j := by
        rw [List.length_append, List.length_singleton]
        omega
      rw [List.getElem?_eq_none hlen, List.getElem?_eq_none (by omega)]

theorem handoffCmd_sortListeners_ok (environ : GoMap String) (configPath : String)
    (descs : List (ListenerDesc Socket)) (cmd : Cmd)
    (h : handoffCmd environ configPath (sortListeners descs) = .ok cmd) : descs ≠ [] := by
  rintro rfl
  exact nomatch h

private theorem launch_moves (k : Nat) (descs : List (ListenerDesc Socket))
    (failure : Option LaunchFailure) (hk : p.phase? k = some (.holding descs)) :
    p.Moves (.launch k failure) (p.launch k descs failure) := by
  have hphase := fun new => phase?_setPhase k _ new hk
  unfold launch
  split
  · exact .fail k descs _ hk (hphase _) rfl rfl
  · exact .fail k descs _ hk (hphase _) rfl rfl
  · rename_i cmd hcmd
    exact .start k descs cmd hk (handoffCmd_sortListeners_ok _ _ _ _ hcmd) (hphase _) rfl rfl

theorem step_moves (p : Process) (a : Action) : p.Moves a (p.step a) := by
  have still : p.Moves a p := .idle rfl rfl rfl
  unfold step
  split
  · exact still
  · cases a with
    | gather source dup =>
      dsimp only
      split
      · exact .arrive p.calls.length (p.descs dup) (by simp [phase?])
          (phase?_append _ { source, phase := .gathered (p.descs dup) } rfl) rfl rfl
      · exact still
    | tryLock k =>
      dsimp only
      split
      · rename_i descs hk
        -- somebody holds the lock, or it is free
        split
        · exact .refuse k descs _ hk (phase?_setPhase k _ _ hk) rfl rfl
        · rename_i hfree
          exact .lock k descs rfl hk (by simpa using hfree) (phase?_setPhase k _ _ hk) rfl rfl
      · exact still
    | launch k failure =>
      dsimp only
      split
      · rename_i descs hk
        exact launch_moves k descs failure hk
      · exact still
    | await k r =>
      dsimp only
      split
      · rename_i child hk
        exact .settle k child r hk (phase?_setPhase k _ _ hk) rfl rfl
      · exact still
    | notify k =>
      dsimp only
      split
      · rename_i err hk
        exact .finish k err hk (phase?_setPhase k _ _ hk) rfl rfl
      · exact still
    | drain signal =>
      -- `run` leaves its wait, which is no part of a call
      dsimp only
      split
      · exact still
      · split
        · exact .idle rfl rfl rfl
        · split
          · exact .idle rfl rfl rfl
          · exact still
    | shutdown =>
      dsimp only
      split
      · exact still
      · exact .idle rfl rfl rfl
      · rename_i s rest _
        cases s <;> exact .idle rfl rfl rfl

/-! ## The lock -/

/-- At most one call holds the lock, and none while it is free. -/
structure Exclusive (phase? : Nat → Option Phase) (inProgress : Bool) : Prop where
  locked : ∀ k phase, phase? k = some phase → phase.holdsLock → inProgress = true
  alone : ∀ j k phase phase', phase? j = some phase → phase? k = some phase' →
    phase.holdsLock → phase'.holdsLock → j = k

namespace Exclusive

variable {phases : Nat → Option Phase} {inProgress : Bool} {k : Nat} {old new : Phase}

/-- A holder after call `k` has moved: call `k` itself, or one that held the lock before. -/
private theorem holder_cases {j : Nat} {phase : Phase}
    (hj : Function.update phases k (some new) j = some phase) :
    (j = k ∧ phase = new) ∨ (j ≠ k ∧ phases j = some phase) := by
  by_cases hjk : j = k
  · subst hjk
    rw [Function.update_self, Option.some.injEq] at hj
    exact Or.inl ⟨rfl, hj.symm⟩
  · rw [Function.update_of_ne hjk] at hj
    exact Or.inr ⟨hjk, hj⟩

/-- A call that moves outside the lock. -/
theorem outside (h : Exclusive phases inProgress) (hnew : new.holdsLock = false) :
    Exclusive (Function.update phases k (some new)) inProgress := by
  constructor
  · intro j phase hj hholds
    rcases holder_cases hj with ⟨-, rfl⟩ | ⟨-, hj⟩
    · simp [hnew] at hholds
    · exact h.locked j phase hj hholds
  · intro i j phase phase' hi hj hholds hholds'
    rcases holder_cases hi with ⟨-, rfl⟩ | ⟨-, hi⟩
    · simp [hnew] at hholds
    · rcases holder_cases hj with ⟨-, rfl⟩ | ⟨-, hj⟩
      · simp [hnew] at hholds'
      · exact h.alone i j phase phase' hi hj hholds hholds'

/-- Once the holder has left, nobody holds the lock. -/
theorem nobody (h : Exclusive phases inProgress) (hk : phases k = some old)
    (hold : old.holdsLock) (hnew : new.holdsLock = false) (j : Nat) (phase : Phase)
    (hj : Function.update phases k (some new) j = some phase) : phase.holdsLock = false := by
  rcases holder_cases hj with ⟨-, rfl⟩ | ⟨hjk, hj⟩
  · exact hnew
  · by_contra hholds
    exact hjk (h.alone j k phase old hj hk (by simpa using hholds) hold)

/-- The holder releases the lock. -/
theorem release (h : Exclusive phases inProgress) (hk : phases k = some old)
    (hold : old.holdsLock) (hnew : new.holdsLock = false) :
    Exclusive (Function.update phases k (some new)) false := by
  have hnobody := h.nobody hk hold hnew
  constructor
  · intro j phase hj hholds
    simp [hnobody j phase hj] at hholds
  · intro i j phase phase' hi _ hholds _
    simp [hnobody i phase hi] at hholds

/-- A call takes the free lock. -/
theorem acquire (h : Exclusive phases false) :
    Exclusive (Function.update phases k (some new)) true := by
  have holder : ∀ j phase, Function.update phases k (some new) j = some phase →
      phase.holdsLock → j = k := by
    intro j phase hj hholds
    rcases holder_cases hj with ⟨rfl, -⟩ | ⟨-, hj⟩
    · rfl
    · exact absurd (h.locked j phase hj hholds) (by simp)
  exact ⟨fun _ _ _ _ => rfl, fun i j phase phase' hi hj hholds hholds' =>
    (holder i phase hi hholds).trans (holder j phase' hj hholds').symm⟩

/-- The holder moves on inside the lock. -/
theorem inside (h : Exclusive phases inProgress) (hk : phases k = some old)
    (hold : old.holdsLock) : Exclusive (Function.update phases k (some new)) inProgress := by
  have holder : ∀ j phase, Function.update phases k (some new) j = some phase →
      phase.holdsLock → j = k := by
    intro j phase hj hholds
    rcases holder_cases hj with ⟨rfl, -⟩ | ⟨-, hj⟩
    · rfl
    · exact h.alone j k phase old hj hk hholds hold
  exact ⟨fun _ _ _ _ => h.locked k old hk hold, fun i j phase phase' hi hj hholds hholds' =>
    (holder i phase hi hholds).trans (holder j phase' hj hholds').symm⟩

end Exclusive

/-! ## The invariant -/

/-- The lock excludes, and after a handoff only a call without listeners may hold it. -/
structure Guarded (p : Process) : Prop where
  exclusive : Exclusive p.phase? p.inProgress
  after : p.HandedOff → ∀ k phase, p.phase? k = some phase → phase.holdsLock → phase = .holding []
  once : p.children.countP (fun c => c.state = .ready) ≤ 1

/-- A call that gets the lock gets it before a handoff has succeeded, or it found no open
    listener. -/
def LocksInTime (p : Process) : Action → Prop
  | .tryLock k => p.HandedOff → p.inProgress = false →
      ∀ descs, p.phase? k = some (.gathered descs) → descs = []
  | _ => True

/-- After a handoff a step starts no child, and no call returns with success. -/
def Refuses (t : Transition Process Action) : Prop :=
  t.before.HandedOff → t.after.children = t.before.children ∧
    ∀ k, t.after.phase? k = some (.returned none) → t.before.phase? k = some (.returned none)

theorem guarded_new (environ : GoMap String) (configPath : String) (listeners : List ListenerRef)
    (adminEnabled isHandoff : Bool) :
    (newProcess environ configPath listeners adminEnabled isHandoff).Guarded := by
  refine ⟨⟨?_, ?_⟩, ?_, by simp [newProcess]⟩
  · intro k phase hk
    exact nomatch hk
  · intro j k phase phase' hj
    exact nomatch hj
  · intro _ k phase hk
    exact nomatch hk

section Step

variable {p' : Process} {k : Nat} {old new : Phase}

/-- A child becomes ready by one at a time. -/
private theorem countP_modify_le {α : Type} (q : α → Bool) (f : α → α) (i : Nat) (l : List α) :
    (l.modify i f).countP q ≤ l.countP q + 1 := by
  induction l generalizing i with
  | nil => simp
  | cons a rest ih =>
    cases i with
    | zero =>
      simp only [List.modify_zero_cons, List.countP_cons]
      split <;> split <;> omega
    | succ i =>
      simp only [List.modify_succ_cons, List.countP_cons]
      have := ih i
      omega

/-- Steps outside the lock. -/
private theorem Guarded.outside (h : p.Guarded) (hnew : new.holdsLock = false)
    (hphase : p'.phase? = Function.update p.phase? k (some new))
    (hchildren : p'.children = p.children) (hlock : p'.inProgress = p.inProgress) :
    p'.Guarded := by
  have hexclusive := h.exclusive.outside (k := k) hnew
  rw [← hphase, ← hlock] at hexclusive
  refine ⟨hexclusive, ?_, by rw [hchildren]; exact h.once⟩
  intro hhanded j phase hj hholds
  rw [HandedOff, hchildren] at hhanded
  rw [hphase] at hj
  rcases Exclusive.holder_cases hj with ⟨-, rfl⟩ | ⟨-, hj⟩
  · simp [hnew] at hholds
  · exact h.after hhanded j phase hj hholds

/-- Steps that release the lock: what becomes of the children does not matter for it. -/
private theorem Guarded.released (h : p.Guarded) (hk : p.phase? k = some old)
    (hold : old.holdsLock) (hnew : new.holdsLock = false)
    (hphase : p'.phase? = Function.update p.phase? k (some new)) (hlock : p'.inProgress = false)
    (honce : p'.children.countP (fun c => c.state = .ready) ≤ 1) : p'.Guarded := by
  refine ⟨by rw [hphase, hlock]; exact h.exclusive.release hk hold hnew, ?_, honce⟩
  intro _ j phase hj hholds
  rw [hphase] at hj
  simp [h.exclusive.nobody hk hold hnew j phase hj] at hholds

theorem Guarded.step (h : p.Guarded) (a : Action) (hin : p.LocksInTime a) :
    (p.step a).Guarded := by
  have hmoves := p.step_moves a
  generalize p.step a = p' at hmoves
  cases hmoves with
  | idle hphase hchildren hlock =>
    refine ⟨by rw [hphase, hlock]; exact h.exclusive, ?_, by rw [hchildren]; exact h.once⟩
    rw [HandedOff, hchildren, hphase]
    exact h.after
  | arrive k descs hk hphase hchildren hlock => exact h.outside rfl hphase hchildren hlock
  | refuse k descs err hk hphase hchildren hlock => exact h.outside rfl hphase hchildren hlock
  | finish k err hk hphase hchildren hlock => exact h.outside rfl hphase hchildren hlock
  | lock k descs ha hk hfree hphase hchildren hlock =>
    subst ha
    have hex := h.exclusive
    rw [hfree] at hex
    refine ⟨by rw [hphase, hlock]; exact hex.acquire, ?_, by rw [hchildren]; exact h.once⟩
    intro hhanded j phase hj hholds
    rw [HandedOff, hchildren] at hhanded
    rw [hphase] at hj
    -- who locks after a handoff has no listeners left to hand over
    rcases Exclusive.holder_cases hj with ⟨-, rfl⟩ | ⟨-, hj⟩
    · rw [hin hhanded hfree descs hk]
    · exact h.after hhanded j phase hj hholds
  | fail k descs err hk hphase hchildren hlock =>
    exact h.released hk rfl rfl hphase hlock (by rw [hchildren]; exact h.once)
  | start k descs cmd hk hdescs hphase hchildren hlock =>
    -- a call with listeners is inside the lock: no handoff has succeeded
    have hbefore : ¬ p.HandedOff := by
      intro hhanded
      have := h.after hhanded k _ hk rfl
      simp only [Phase.holding.injEq] at this
      exact hdescs this
    refine ⟨by rw [hphase, hlock]; exact h.exclusive.inside hk rfl, ?_, ?_⟩
    · rintro ⟨c, hc, hready⟩
      rw [hchildren, List.mem_append, List.mem_singleton] at hc
      rcases hc with hc | rfl
      · exact absurd ⟨c, hc, hready⟩ hbefore
      · exact nomatch hready
    · rw [hchildren, List.countP_append]
      simpa using h.once
  | settle k child r hk hphase hchildren hlock =>
    -- the call waits inside the lock, so this child is the first that can get ready
    have hbefore : ¬ p.HandedOff := fun hhanded => nomatch h.after hhanded k _ hk rfl
    have hzero : p.children.countP (fun c => c.state = .ready) = 0 := by
      rw [List.countP_eq_zero]
      intro c hc hready
      exact hbefore ⟨c, hc, by simpa using hready⟩
    refine h.released hk rfl rfl hphase hlock ?_
    rw [hchildren]
    have := countP_modify_le (fun c : Child => decide (c.state = .ready))
      (fun c => { c with state := if r.error.isNone then .ready else .killed }) child p.children
    omega

/-- After a handoff nothing is started and nothing succeeds. -/
theorem Guarded.refuses (h : p.Guarded) (a : Action) : Refuses ⟨p, a, p.step a⟩ := by
  have hmoves := p.step_moves a
  generalize p.step a = p' at hmoves
  intro hhanded
  -- a call that moves to another phase than success
  have unsuccessful : ∀ {k : Nat} {new : Phase}, new ≠ .returned none →
      p'.phase? = Function.update p.phase? k (some new) → ∀ j,
      p'.phase? j = some (.returned none) → p.phase? j = some (.returned none) := by
    intro k new hnew hphase j hj
    rw [hphase] at hj
    rcases Exclusive.holder_cases hj with ⟨-, hbad⟩ | ⟨-, hj⟩
    · exact absurd hbad.symm hnew
    · exact hj
  cases hmoves with
  | idle hphase hchildren hlock => exact ⟨hchildren, fun k hk => hphase ▸ hk⟩
  | arrive k descs hk hphase hchildren hlock => exact ⟨hchildren, unsuccessful (by simp) hphase⟩
  | refuse k descs err hk hphase hchildren hlock =>
    exact ⟨hchildren, unsuccessful (by simp) hphase⟩
  | lock k descs ha hk hfree hphase hchildren hlock =>
    exact ⟨hchildren, unsuccessful (by simp) hphase⟩
  | fail k descs err hk hphase hchildren hlock => exact ⟨hchildren, unsuccessful (by simp) hphase⟩
  | finish k err hk hphase hchildren hlock => exact ⟨hchildren, unsuccessful (by simp) hphase⟩
  | start k descs cmd hk hdescs hphase hchildren hlock =>
    have := h.after hhanded k _ hk rfl
    simp only [Phase.holding.injEq] at this
    exact absurd this hdescs
  | settle k child r hk hphase hchildren hlock => exact nomatch h.after hhanded k _ hk rfl

end Step

end Process

/-- In every run in which a call gets the lock only before a handoff has succeeded, or
    without listeners, at most one child ever becomes ready, and once one has, every
    trigger is refused. -/
theorem at_most_one_successor (environ : GoMap String) (configPath : String)
    (listeners : List ListenerRef) (adminEnabled isHandoff : Bool) (run : List Action)
    (hrun : List.Along Process.step Process.LocksInTime
      (newProcess environ configPath listeners adminEnabled isHandoff) run) :
    ((run.foldl Process.step
        (newProcess environ configPath listeners adminEnabled isHandoff)).children.countP
      fun c => c.state = .ready) ≤ 1 ∧
    ∀ past t rest, Transition.trace Process.step
        (newProcess environ configPath listeners adminEnabled isHandoff) run = past ++ t :: rest →
      Process.Refuses t := by
  have hnew := Process.guarded_new environ configPath listeners adminEnabled isHandoff
  constructor
  · exact (List.foldl_along Process.step Process.LocksInTime Process.Guarded
      (fun p a hp ha => hp.step a ha) _ hnew run hrun).once
  · intro past t rest hcut
    obtain ⟨hguard, -, hafter⟩ := Transition.trace_cut Process.step Process.LocksInTime
      (fun p _ => p.Guarded) (fun p _ a ha hp => hp.step a ha) _ [] hnew run hrun past t rest hcut
    have hrefuses := hguard.refuses t.action
    rw [← hafter] at hrefuses
    exact hrefuses

/-- A process with one proxy and the admin API. -/
def frontProcess : Process :=
  newProcess ∅ "lb.yaml"
    [⟨"_admin", "http", .admin, 7, true⟩, ⟨"front", "http", .proxy, 8, true⟩] true false

/-- A signal and a request at the same time: the request is refused. A second request
    reaches its handler when all listeners are closed and is refused as well. -/
def restartOnce : List Action :=
  [.gather .sigusr2 fun _ => true, .gather .admin fun _ => true, .tryLock 0, .tryLock 1,
    .launch 0 none, .await 0 (.byte 82), .notify 0, .drain false, .shutdown, .shutdown,
    .gather .admin fun _ => true, .tryLock 2, .launch 2 none]

theorem at_most_one_successor_once :
    ((restartOnce.foldl Process.step frontProcess).children.countP
      fun c => c.state = .ready) ≤ 1 := by
  refine (at_most_one_successor ∅ "lb.yaml" _ true false restartOnce ?_).1
  refine ⟨trivial, trivial, ?_, ?_, trivial, trivial, trivial, trivial, trivial, trivial, trivial,
    ?_, trivial, trivial⟩
  · rintro ⟨c, hc, -⟩
    exact nomatch hc
  · intro _ hfree
    exact nomatch hfree
  · intro _ _ descs hdescs
    have hnone : Process.phase? (List.foldl Process.step frontProcess (restartOnce.take 11)) 2 =
        some (.gathered []) := by decide +kernel
    exact (Phase.gathered.inj (Option.some.inj (hnone.symm.trans hdescs))).symm

/-- Two signals, the second while the process drains: both children get the sockets and
    become ready. -/
theorem second_signal_starts_successor :
    (([.gather .sigusr2 fun _ => true, .tryLock 0, .launch 0 none, .await 0 (.byte 82), .notify 0,
        .drain false, .gather .sigusr2 fun _ => true, .tryLock 1, .launch 1 none,
        .await 1 (.byte 82)].foldl Process.step frontProcess).children.map
      fun c => (c.state, c.cmd.descriptor 3, c.cmd.descriptor 4)) =
      [(.ready, some (.listener 7), some (.listener 8)),
        (.ready, some (.listener 7), some (.listener 8))] := by
  decide +kernel

end HootLb.Restart
