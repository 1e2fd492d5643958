import HootLb.Spec.HandoffMap
import HootLb.Spec.Successor

/-!
# Generations of a process

A process hands its listeners over to a child, which hands them over to the next one.
What tells a process that it is a child is a variable of its environment, which it
passes on, and a child does not listen to SIGUSR2. So the signal works once: of all
generations only the original process reacts to it.

The request of the admin API does not look at the variable, and through it every
generation has a next one with the same listeners.

## Key results

- `restart_by_signal_iff`: the generations that react to SIGUSR2
- `every_generation`: there is one of every number
-/

namespace HootLb.Restart

open Process

/-- The process that serves after `k` successful handoffs, beginning with `first`, when it
    starts to wait for signals. Each generation may run in any way and the successor may
    be any of its children that became ready, with any configuration. -/
inductive Generation (first : Process) : Nat → Process → Prop where
  | original : Generation first 0 first
  | next {k : Nat} {p q : Process} (h : Generation first k p) (run : List Action) (child : Child)
      (hchild : child ∈ (run.foldl step p).children) (hready : child.state = .ready)
      (bind : String → Socket) (registrations : List Registration) (adminEnabled : Bool)
      (hq : p.successor child.cmd bind registrations adminEnabled = some q) :
      Generation first (k + 1) q

/-- The process as it is when it starts to wait. -/
structure Process.Fresh (p : Process) : Prop where
  calls : p.calls = []
  children : p.children = []
  exited : p.exited = false
  inProgress : p.inProgress = false

theorem fresh_new (environ : GoMap String) (configPath : String) (listeners : List ListenerRef)
    (adminEnabled isHandoff : Bool) :
    (newProcess environ configPath listeners adminEnabled isHandoff).Fresh := ⟨rfl, rfl, rfl, rfl⟩

/-! ## The environment of a child -/

/-- The children of a process were started by `Trigger`. -/
def Process.Started (p : Process) : Prop :=
  ∀ c ∈ p.children, ∃ environ configPath sorted, handoffCmd environ configPath sorted = .ok c.cmd

/-- Only the start of a child adds one. -/
theorem started_launch (p : Process) (k : Nat) (descs : List (ListenerDesc Socket))
    (failure : Option LaunchFailure) (h : p.Started) : (p.launch k descs failure).Started := by
  unfold launch
  split
  · exact h
  · exact h
  · rename_i cmd hcmd
    intro c hc
    obtain hold | hnew := List.mem_append.mp hc
    · exact h c hold
    · obtain rfl := List.mem_singleton.mp hnew
      exact ⟨_, _, _, hcmd⟩

/-- What comes out of the readiness pipe does not change the command. -/
theorem started_await (p : Process) (k child : Nat) (r : Readiness) (h : p.Started) :
    (p.await k child r).Started := by
  intro c hc
  obtain ⟨i, hi⟩ := List.mem_iff_getElem?.mp hc
  simp only [await, List.getElem?_modify] at hi
  cases hc' : p.children[i]? with
  | none => simp [hc'] at hi
  | some c' =>
    obtain ⟨environ, configPath, sorted, hcmd⟩ := h c' (List.mem_of_getElem? hc')
    refine ⟨environ, configPath, sorted, ?_⟩
    rw [hc'] at hi
    cases hi
    dsimp only
    split <;> exact hcmd

theorem started_step (p : Process) (a : Action) (h : p.Started) : (p.step a).Started := by
  unfold step
  split
  · exact h
  · cases a with
    | launch k failure =>
      dsimp only
      split
      · exact started_launch p k _ failure h
      · exact h
    | await k r =>
      dsimp only
      split
      · exact started_await p k _ r h
      · exact h
    | gather source dup =>
      dsimp only
      split <;> exact h
    | tryLock k =>
      dsimp only
      split
      · split <;> exact h
      · exact h
    | notify k =>
      dsimp only
      split <;> exact h
    | drain signal =>
      dsimp only
      split
      · exact h
      · split
        · exact h
        · split <;> exact h
    | shutdown =>
      dsimp only
      split
      · exact h
      · exact h
      · rename_i part _ _
        cases part <;> exact h

/-- A child of a handoff knows that it is one. -/
theorem isHandoff_of_handoffCmd {environ : GoMap String} {configPath : String}
    {sorted : List (ListenerDesc Socket)} {cmd : Cmd}
    (h : handoffCmd environ configPath sorted = .ok cmd) : isHandoff cmd.env = true := by
  obtain ⟨-, -, hhandoff, -⟩ := handoffCmd_ok environ configPath sorted cmd h
  unfold Cmd.getenv at hhandoff
  simp [isHandoff, hhandoff]

/-- A process that begins to wait as a later generation does not listen to the signal. -/
theorem Generation.fresh {first p : Process} {k : Nat} (hfirst : first.Fresh)
    (h : Generation first k p) : p.Fresh ∧ (1 ≤ k → p.listensSIGUSR2 = false) := by
  induction h with
  | original => exact ⟨hfirst, fun h => absurd h (by decide)⟩
  | next hgen run child hchild hready bind registrations adminEnabled hq ih =>
    obtain ⟨listeners, -, rfl⟩ := Option.map_eq_some_iff.mp hq
    refine ⟨fresh_new .., fun _ => ?_⟩
    -- the child was started by `Trigger`, whatever the generation before did
    rename_i p _
    have hstarted : (run.foldl step p).Started := by
      refine List.foldl_along step (fun _ _ => True) Started
        (fun p a h _ => started_step p a h) p ?_ run (List.along_trivial ..)
      intro c hc
      rw [ih.1.children] at hc
      cases hc
    obtain ⟨environ, configPath, sorted, hcmd⟩ := hstarted child hchild
    simp [newProcess, isHandoff_of_handoffCmd hcmd]

/-! ## The signal -/

/-- The signal makes the process gather its open listeners for a handoff. -/
def Process.SignalTriggers (p : Process) : Prop :=
  ∀ dup, (p.step (.gather .sigusr2 dup)).calls =
    p.calls ++ [{ source := .sigusr2, phase := .gathered (p.descs dup) }]

theorem Process.Fresh.signalTriggers_iff {p : Process} (h : p.Fresh) :
    p.SignalTriggers ↔ p.listensSIGUSR2 = true := by
  constructor
  · intro htriggers
    by_contra hnot
    have hcalls := htriggers fun _ => true
    simp [step, h.exited, accepts, hnot] at hcalls
  · intro hlistens dup
    simp [step, h.exited, accepts, hlistens, h.calls]

/-- Nothing has been triggered, and the signal will not trigger anything. -/
structure Process.Silent (p : Process) : Prop where
  calls : p.calls = []
  children : p.children = []
  deaf : p.listensSIGUSR2 = false

theorem Process.Silent.step {p : Process} (h : p.Silent) (a : Action)
    (ha : ∀ dup, a ≠ .gather .admin dup) : (p.step a).Silent := by
  have hphase (k : Nat) : p.phase? k = none := by simp [phase?, h.calls]
  unfold Process.step
  split
  · exact h
  · cases a with
    | gather source dup =>
      cases source with
      | admin => exact absurd rfl (ha dup)
      | sigusr2 => simpa [accepts, h.deaf] using h
    | tryLock k => simpa [hphase] using h
    | launch k failure => simpa [hphase] using h
    | await k r => simpa [hphase] using h
    | notify k => simpa [hphase] using h
    | drain signal =>
      dsimp only
      split
      · exact h
      · split
        · exact ⟨h.calls, h.children, h.deaf⟩
        · split
          · exact ⟨h.calls, h.children, h.deaf⟩
          · exact h
    | shutdown =>
      dsimp only
      split
      · exact h
      · exact ⟨h.calls, h.children, h.deaf⟩
      · rename_i part _ _
        cases part with
        | stopSIGUSR2 => exact ⟨h.calls, h.children, rfl⟩
        | _ => exact ⟨h.calls, h.children, h.deaf⟩

/-- A process that was not started by a handoff, and the generations after it. The
    generation `k` reacts to SIGUSR2 with a handoff of its listeners exactly when it is
    the original process; from a later one the signal never leads to a next one. -/
theorem restart_by_signal_iff (environ : GoMap String) (configPath : String)
    (listeners : List ListenerRef) (adminEnabled : Bool) (horiginal : isHandoff environ = false)
    (k : Nat) (p : Process)
    (hgen : Generation
      (newProcess environ configPath listeners adminEnabled (isHandoff environ)) k p) :
    (p.SignalTriggers ↔ k = 0) ∧
    (1 ≤ k → ∀ run : List Action, (∀ dup, .gather .admin dup ∉ run) →
      (run.foldl step p).children = []) := by
  obtain ⟨hfresh, hdeaf⟩ := hgen.fresh (fresh_new ..)
  constructor
  · rw [hfresh.signalTriggers_iff]
    cases hgen with
    | original => simp [newProcess, horiginal]
    | next => simp [hdeaf (Nat.le_add_left 1 _)]
  · intro hk run hrun
    have hsilent : (run.foldl step p).Silent := by
      refine List.foldl_along step (fun _ a => ∀ dup, a ≠ .gather .admin dup) Silent
        (fun p a h ha => h.step a ha) p ⟨hfresh.calls, hfresh.children, hdeaf hk⟩ run ?_
      exact List.along_of_forall step _ p run fun a ha dup heq => hrun dup (heq ▸ ha)
    exact hsilent.children

theorem front_reacts_to_signal : frontProcess.SignalTriggers :=
  (restart_by_signal_iff ∅ "lb.yaml"
    [⟨"_admin", "http", .admin, 7, true⟩, ⟨"front", "http", .proxy, 8, true⟩] true (by decide) 0
    frontProcess .original).1.mpr rfl

/-! ## Every generation -/

/-- A trigger whose child becomes ready. -/
def handOver (source : Source) : List Action :=
  [.gather source fun _ => true, .tryLock 0, .launch 0 none, .await 0 (.byte 82)]

theorem handoffCmd_of_ne_nil (environ : GoMap String) (configPath : String)
    {descs : List (ListenerDesc Socket)} (hne : descs ≠ []) :
    ∃ cmd, handoffCmd environ configPath (sortListeners descs) = .ok cmd := by
  have hsorted : (sortListeners descs).isEmpty = false := by
    have hlen : (sortListeners descs).length = descs.length := List.length_insertionSort _ _
    cases hs : sortListeners descs with
    | nil =>
      rw [hs] at hlen
      exact absurd (List.length_eq_zero_iff.mp hlen.symm) hne
    | cons => rfl
  exact ⟨_, by rw [handoffCmd, hsorted]; rfl⟩

/-- A process that accepts a trigger gets a child with all its open listeners. -/
theorem Process.Fresh.handOver {p : Process} (h : p.Fresh) {source : Source}
    (haccepts : p.accepts source = true) {cmd : Cmd}
    (hcmd : handoffCmd p.environ p.configPath (sortListeners (p.descs fun _ => true)) = .ok cmd) :
    ((handOver source).foldl step p).children = [{ cmd, state := .ready }] := by
  -- the four states, one after the other
  have hgather : p.step (.gather source fun _ => true) =
      { p with calls := [{ source, phase := .gathered (p.descs fun _ => true) }] } := by
    simp [step, h.exited, haccepts, h.calls]
  simp only [Restart.handOver, List.foldl_cons, List.foldl_nil]
  rw [hgather]
  simp [step, h.exited, h.inProgress, phase?, setPhase, launch, await, release, hcmd, h.children,
    Readiness.error]

/-- A listener as `triggerRestart` describes it. -/
def ListenerRef.desc (l : ListenerRef) : ListenerDesc Socket :=
  { name := l.name, protocol := l.protocol, file := l.socket }

/-- If every listener is open, every listener is gathered. -/
theorem Process.descs_all (p : Process) (hopen : ∀ l ∈ p.currentListeners, l.isOpen = true) :
    (p.descs fun _ => true) = p.currentListeners.map ListenerRef.desc := by
  have hall (refs : List ListenerRef) (n : Nat) (h : ∀ l ∈ refs, l.isOpen = true) :
      ((refs.zipIdx n).filterMap fun entry =>
        if entry.1.isOpen && true then some entry.1.desc else none) =
      refs.map ListenerRef.desc := by
    induction refs generalizing n with
    | nil => rfl
    | cons l rest ih =>
      obtain ⟨hl, hrest⟩ := List.forall_mem_cons.mp h
      simp only [List.zipIdx_cons, List.filterMap_cons, hl, Bool.and_self, if_true, List.map_cons]
      rw [← ih (n + 1) hrest]
  exact hall p.currentListeners 0 hopen

/-- A listener that was handed over under its name is adopted with its socket. -/
theorem adopt_of_exact {sorted : List (ListenerDesc Socket)} {cmd : Cmd}
    (hexact : HandoffExact sorted cmd) (bind : String → Socket) {l : ListenerRef}
    (hopen : l.isOpen = true)
    (hmem : l.desc ∈ sorted) :
    adopt cmd bind { name := l.name, protocol := l.protocol, owner := l.owner } = some l := by
  obtain ⟨i, hi⟩ := List.mem_iff_getElem?.mp hmem
  obtain ⟨d, hd, hfile⟩ := Option.map_eq_some_iff.mp (hexact.inherited i _ hi)
  have hsocket := hexact.sockets i _ hi
  have hname : l.desc.name = l.name := rfl
  simp only [adopt]
  rw [← hname, hd]
  simp only [hfile, hsocket]
  rw [← hopen]
  rfl

/-- Through the admin API a process with listeners of plain, different names has
    successors of every generation, with the same listeners. -/
theorem every_generation (environ : GoMap String) (configPath : String)
    (listeners : List ListenerRef) (handoff : Bool) (hne : listeners ≠ [])
    (hopen : ∀ l ∈ listeners, l.isOpen = true) (hplain : ∀ l ∈ listeners, PlainName l.name)
    (hnodup : (listeners.map (·.name)).Nodup) (hlen : listeners.length + 3 < 2 ^ 63) (k : Nat) :
    ∃ p, Generation (newProcess environ configPath listeners true handoff) k p ∧
      p.currentListeners = listeners ∧ p.adminEnabled = true := by
  induction k with
  | zero => exact ⟨_, .original, rfl, rfl⟩
  | succ k ih =>
    obtain ⟨p, hgen, hlisteners, hadmin⟩ := ih
    have hfresh := (hgen.fresh (fresh_new ..)).1
    -- the listeners that are gathered, and the command that is made of them
    have hdescs : (p.descs fun _ => true) = listeners.map ListenerRef.desc := by
      rw [p.descs_all (by rw [hlisteners]; exact hopen), hlisteners]
    obtain ⟨cmd, hcmd⟩ := handoffCmd_of_ne_nil p.environ p.configPath
      (show (p.descs fun _ => true) ≠ [] by rw [hdescs]; simpa using hne)
    have hperm : (sortListeners (p.descs fun _ => true)).Perm (listeners.map ListenerRef.desc) := by
      rw [hdescs]
      exact List.perm_insertionSort _ _
    have hexact : HandoffExact (sortListeners (p.descs fun _ => true)) cmd := by
      refine (handoffExact_iff_names hcmd ?_).mpr ⟨?_, ?_⟩
      · rw [hperm.length_eq, List.length_map]
        exact hlen
      · intro d hd
        obtain ⟨l, hl, rfl⟩ := List.mem_map.mp (hperm.mem_iff.mp hd)
        exact hplain l hl
      · rw [(hperm.map _).nodup_iff, List.map_map]
        exact hnodup
    -- the child that becomes ready, and what it registers
    have hchildren := hfresh.handOver (show p.accepts .admin = true from hadmin) hcmd
    have hadopt : (listeners.map fun l => (⟨l.name, l.protocol, l.owner⟩ : Registration)).mapM
        (adopt cmd fun _ => 0) = some listeners := by
      rw [List.mapM_map]
      have := List.mapM_option_eq_some_map
        (fun l : ListenerRef => adopt cmd (fun _ => 0) ⟨l.name, l.protocol, l.owner⟩) id listeners
        fun l hl => adopt_of_exact hexact _ (hopen l hl)
          (hperm.mem_iff.mpr (List.mem_map_of_mem hl))
      exact this.trans (congrArg some (List.map_id _))
    refine ⟨_, .next hgen (handOver .admin) { cmd, state := .ready } (by simp [hchildren]) rfl
      (fun _ => 0) (listeners.map fun l => ⟨l.name, l.protocol, l.owner⟩) true
      (by rw [successor, hadopt]; rfl), rfl, rfl⟩

theorem every_generation_front :
    ∃ p, Generation frontProcess 3 p ∧ p.currentListeners = frontProcess.currentListeners ∧
      p.adminEnabled = true :=
  every_generation ∅ "lb.yaml"
    [⟨"_admin", "http", .admin, 7, true⟩, ⟨"front", "http", .proxy, 8, true⟩] false (by decide)
    (by decide) (by decide) (by decide) (by decide) 3

/-- The process after a restart by the signal, with the same configuration. -/
def frontSuccessor : Option Process :=
  ((handOver .sigusr2).foldl step frontProcess).children.head?.bind fun child =>
    frontProcess.successor child.cmd (fun _ => 0)
      [⟨"_admin", "http", .admin⟩, ⟨"front", "http", .proxy⟩] true

/-- It has the listeners of the original process, and the next signal does nothing. -/
theorem second_signal_ignored :
    ∃ q, Generation frontProcess 1 q ∧ q.currentListeners = frontProcess.currentListeners ∧
      (q.step (.gather .sigusr2 fun _ => true)).calls = [] := by
  have hview : frontSuccessor.map
      (fun q => (q.currentListeners, (q.step (.gather .sigusr2 fun _ => true)).calls)) =
        some (frontProcess.currentListeners, []) := by decide +kernel
  have hready : ∀ c ∈ ((handOver .sigusr2).foldl step frontProcess).children, c.state = .ready := by
    decide +kernel
  obtain ⟨q, hq, hfields⟩ := Option.map_eq_some_iff.mp hview
  obtain ⟨child, hhead, hsuccessor⟩ := Option.bind_eq_some_iff.mp hq
  have hchild := List.mem_of_mem_head? hhead
  obtain ⟨hlisteners, hcalls⟩ := Prod.mk.inj hfields
  exact ⟨q, .next .original _ child hchild (hready child hchild) _ _ _ hsuccessor, hlisteners,
    hcalls⟩

end HootLb.Restart
