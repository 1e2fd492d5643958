import HootLb.ForStd.Trace
import HootLb.Native.Shutdown
import HootLb.Spec.UdpLiveness

/-!
# Shutdown drains

What `Close` of the L4 proxies relies on is the order of four things: `closing` is set
under the mutex under which handlers and readers are registered, the eviction goroutine
is registered before `evictStarted` is closed, `Close` waits for that channel, and only
then for the group. From the flag on no handler and no reader is started, from the
wait on nothing is, and so the group that has been waited for stays empty.

## Key results

- `TcpShutdown.Sound`, `UdpShutdown.Sound`: the group counts every goroutine at work
- `TcpShutdown.Sound.step`, `UdpShutdown.Sound.step`: these are kept, and what a step
  leaves as it is from the flag on and from the wait on
- `shutdown_drains`: the runs of the three servers
-/

namespace HootLb.L4

/-! ## TCP and TLS passthrough -/

/-- The connection has a goroutine that is not at its last deferred call. -/
def ConnPhase.handled : ConnPhase → Bool
  | serving | served => true
  | _ => false

theorem giveBack_clients {maxConn : Int} {sem sem' : Semaphore ConnPhase} {conn : Nat}
    (h : giveBack maxConn sem conn = some sem') :
    sem'.clients = sem.clients.set conn .finished := by
  unfold giveBack at h
  split at h
  · cases h
    rfl
  · exact Semaphore.clients_give _ _ _ h

/-- What a step of the server does to the flag and to its connections: only `Close` sets
    the flag, and a connection gets its goroutine under the mutex and with the flag not
    set. -/
theorem AcceptServer.step_clients {maxConn : Int} {s s' : AcceptServer} {a : AcceptAction}
    (h : s.step maxConn a = some s') :
    (a ≠ .close → s'.closing = s.closing) ∧
    (s'.sem.clients = s.sem.clients ∨ s'.sem.clients = s.sem.clients ++ [.accepted] ∨
      ∃ conn phase, s'.sem.clients = s.sem.clients.set conn phase ∧
        (phase.handled = true → s.sem.clients[conn]? = some .serving ∨
          a = .lock ∧ s.loop = .lock conn ∧ s.closing = false)) := by
  cases a with
  | accept =>
    rw [step] at h
    split at h
    case h_2 => cases h
    case h_1 =>
      cases h
      exact ⟨fun _ => rfl, .inr (.inl rfl)⟩
  | acceptFails =>
    rw [step] at h
    split at h
    case h_2 => cases h
    case h_1 =>
      cases h
      exact ⟨fun _ => rfl, .inl rfl⟩
  | select =>
    rw [step] at h
    split at h
    case h_2 => cases h
    case h_1 conn _ =>
      split at h
      case h_1 =>
        cases h
        exact ⟨fun _ => rfl, .inr (.inr ⟨conn, .admitted, rfl, by simp [ConnPhase.handled]⟩)⟩
      case h_2 =>
        split at h
        all_goals
          cases h
          exact ⟨fun _ => rfl, .inr (.inr ⟨conn, _, rfl, by simp [ConnPhase.handled]⟩)⟩
  | lock =>
    rw [step] at h
    split at h
    case h_2 => cases h
    case h_1 conn hloop =>
      split at h
      case isTrue =>
        cases h
        exact ⟨fun _ => rfl, .inr (.inr ⟨conn, .aborting, rfl, by simp [ConnPhase.handled]⟩)⟩
      case isFalse hclosing =>
        cases h
        exact ⟨fun _ => rfl,
          .inr (.inr ⟨conn, .serving, rfl, fun _ => .inr ⟨rfl, hloop, by simpa using hclosing⟩⟩)⟩
  | abort =>
    rw [step] at h
    split at h
    case h_2 => cases h
    case h_1 conn _ =>
      obtain ⟨sem, hgive, rfl⟩ := Option.map_eq_some_iff.mp h
      exact ⟨fun _ => rfl, .inr (.inr ⟨conn, .finished, giveBack_clients hgive,
        by simp [ConnPhase.handled]⟩)⟩
  | handled conn =>
    rw [step] at h
    obtain ⟨hserving, h⟩ := Option.ite_none_right_eq_some.mp h
    cases h
    exact ⟨fun _ => rfl, .inr (.inr ⟨conn, .served, rfl, fun _ => .inl hserving⟩)⟩
  | release conn =>
    rw [step] at h
    obtain ⟨-, h⟩ := Option.ite_none_right_eq_some.mp h
    obtain ⟨sem, hgive, rfl⟩ := Option.map_eq_some_iff.mp h
    exact ⟨fun _ => rfl, .inr (.inr ⟨conn, .finished, giveBack_clients hgive,
      by simp [ConnPhase.handled]⟩)⟩
  | close =>
    cases h
    exact ⟨fun hne => absurd rfl hne, .inl rfl⟩

/-- A connection that has a goroutine after a step had one before, or the step has given
    it one. -/
theorem AcceptServer.step_handled {maxConn : Int} {s s' : AcceptServer} {a : AcceptAction}
    (h : s.step maxConn a = some s') (conn : Nat) (phase : ConnPhase)
    (hconn : s'.sem.clients[conn]? = some phase) (hphase : phase.handled = true) :
    (∃ old, s.sem.clients[conn]? = some old ∧ old.handled = true) ∨
      a = .lock ∧ s.loop = .lock conn ∧ s.closing = false := by
  obtain heq | happend | ⟨moved, next, hset, hnext⟩ := (step_clients h).2
  · rw [heq] at hconn
    exact .inl ⟨phase, hconn, hphase⟩
  · rw [happend, List.getElem?_append] at hconn
    split at hconn
    · exact .inl ⟨phase, hconn, hphase⟩
    · -- a connection that is accepted has no goroutine yet
      obtain rfl := List.mem_singleton.mp (List.mem_of_getElem? hconn)
      cases hphase
  · rw [hset, List.getElem?_set] at hconn
    split at hconn
    case isTrue hmoved =>
      obtain ⟨-, hsame⟩ := Option.ite_none_right_eq_some.mp hconn
      cases hsame
      subst hmoved
      exact (hnext hphase).imp_left fun hserving => ⟨.serving, hserving, rfl⟩
    case isFalse => exact .inl ⟨phase, hconn, hphase⟩

namespace TcpShutdown

variable {maxConn : Int} {s s' : TcpShutdown}

/-- The flag says whether `Close` has been called, the group counts every connection with
    a goroutine that is at work, and after a successful `Close` it counts none. -/
structure Sound (s : TcpShutdown) : Prop where
  closing_iff : s.server.closing = true ↔ s.close ≠ .notCalled
  counted : ∀ conn phase, s.server.sem.clients[conn]? = some phase → phase.handled = true →
    Counted.running conn ∈ s.wg.tasks
  drained : s.close = .returned true → s.wg.counter = 0

/-- A step of the loop or of a handler starts no goroutine, or one for the connection that
    the loop has at the mutex. -/
theorem step_serve {a : AcceptAction} (h : s.step maxConn (.serve a) = some s') :
    a ≠ .close ∧ s.server.step maxConn a = some s'.server ∧ s'.close = s.close ∧
      ((a ≠ .lock ∨ s.server.closing = true) ∧ s'.wg = s.wg ∨
        ∃ conn, a = .lock ∧ s.server.loop = .lock conn ∧ s.server.closing = false ∧
          s'.wg = s.wg.start conn) := by
  cases a with
  | close => cases h
  | lock =>
    cases hloop : s.server.loop with
    | lock conn =>
      simp only [step, hloop] at h
      obtain ⟨server, hserver, rfl⟩ := Option.map_eq_some_iff.mp h
      refine ⟨by decide, hserver, rfl, ?_⟩
      cases hclosing : s.server.closing with
      | true => exact .inl ⟨.inr rfl, by simp⟩
      | false => exact .inr ⟨conn, rfl, rfl, rfl, by simp⟩
    | _ => simp [step, hloop, AcceptServer.step] at h
  | _ =>
    obtain ⟨server, hserver, rfl⟩ := Option.map_eq_some_iff.mp h
    exact ⟨by simp, hserver, rfl, .inl ⟨.inl (by simp), rfl⟩⟩

/-- What a step leaves as it is from the flag on. -/
def Keeps (s s' : TcpShutdown) : Prop :=
  s.server.closing = true → s'.server.closing = true ∧ s.wg.WindsDown s'.wg

theorem Keeps.refl (s : TcpShutdown) : s.Keeps s := fun h => ⟨h, .refl _⟩

theorem Keeps.trans {s'' : TcpShutdown} (h : s.Keeps s') (h' : s'.Keeps s'') : s.Keeps s'' := by
  intro hclosing
  obtain ⟨hmid, hdown⟩ := h hclosing
  obtain ⟨hend, hdown'⟩ := h' hmid
  exact ⟨hend, hdown.trans hdown'⟩

theorem Sound.serve (hs : s.Sound) {a : AcceptAction} (h : s.step maxConn (.serve a) = some s') :
    s'.Sound ∧ s.Keeps s' := by
  obtain ⟨hclose, hserver, hstage, hwg⟩ := step_serve h
  have hflag := (AcceptServer.step_clients hserver).1
  have hhandled := AcceptServer.step_handled hserver
  have hiff : s'.server.closing = true ↔ s'.close ≠ .notCalled := by
    rw [hflag hclose, hstage]
    exact hs.closing_iff
  obtain ⟨hno, hwg⟩ | ⟨conn, rfl, hloop, hopen, hwg⟩ := hwg
  · refine ⟨⟨hiff, ?_, ?_⟩, fun hclosing => ⟨by rwa [hflag hclose], by rw [hwg]; exact .refl _⟩⟩
    · intro conn phase hconn hphase
      rw [hwg]
      obtain ⟨old, hold, hold'⟩ | ⟨hlock, -, hopen⟩ := hhandled conn phase hconn hphase
      · exact hs.counted conn old hold hold'
      · exact absurd hlock (hno.resolve_right (by simp [hopen]))
    · rw [hwg, hstage]
      exact hs.drained
  · -- the loop has passed the mutex before `Close`
    have hnot : s.close = .notCalled := by
      by_contra hne
      rw [hs.closing_iff.mpr hne] at hopen
      cases hopen
    refine ⟨⟨hiff, ?_, fun hret => ?_⟩, fun hclosing => ?_⟩
    · intro conn' phase hconn hphase
      rw [hwg]
      obtain ⟨old, hold, hold'⟩ | ⟨-, hloop', -⟩ := hhandled conn' phase hconn hphase
      · exact s.wg.running_mem_start (hs.counted conn' old hold hold')
      · rw [hloop] at hloop'
        cases hloop'
        exact s.wg.running_self_mem_start conn
    · rw [hstage, hnot] at hret
      cases hret
    · rw [hopen] at hclosing
      cases hclosing

/-- A handler is done when its connection has left the semaphore. -/
theorem Sound.done (hs : s.Sound) {k conn : Nat} (hk : s.wg.tasks[k]? = some (.running conn))
    (hfinished : s.server.sem.clients[conn]? = some .finished) :
    Sound { s with wg := s.wg.finish k conn hk } ∧
      s.Keeps { s with wg := s.wg.finish k conn hk } := by
  refine ⟨⟨hs.closing_iff, ?_, fun hret => ?_⟩, fun hclosing => ⟨hclosing, .finish _ _ _ hk⟩⟩
  · intro conn' phase hconn hphase
    refine s.wg.running_mem_finish hk (hs.counted conn' phase hconn hphase) ?_
    -- the goroutine that finishes is past its receive
    rintro rfl
    rw [hfinished] at hconn
    cases hconn
    cases hphase
  · have := hs.drained hret
    show s.wg.counter - 1 = 0
    omega

/-- A call of `Close` that has set the flag goes on. -/
theorem Sound.advance (hs : s.Sound) (next : CloseStage) (hstage : s.close ≠ .notCalled)
    (hnext : next ≠ .notCalled) (hdrained : next = .returned true → s.wg.counter = 0) :
    Sound { s with close := next } ∧ s.Keeps { s with close := next } := by
  have hclosing := hs.closing_iff.mpr hstage
  exact ⟨⟨by simp [hclosing, hnext], hs.counted, hdrained⟩, fun _ => ⟨hclosing, .refl _⟩⟩

/-- The invariant is kept, and from the flag on the group winds down. -/
theorem Sound.step (hs : s.Sound) (a : TcpShutdownAction) (h : s.step maxConn a = some s') :
    s'.Sound ∧ s.Keeps s' := by
  cases a with
  | serve a => exact hs.serve h
  | done k =>
    simp only [TcpShutdown.step] at h
    split at h
    case h_2 => cases h
    case h_1 conn hk =>
      obtain ⟨hfinished, h⟩ := Option.ite_none_right_eq_some.mp h
      cases h
      exact hs.done hk hfinished
  | mark =>
    obtain ⟨-, h⟩ := Option.ite_none_right_eq_some.mp h
    cases h
    exact ⟨⟨by simp, hs.counted, fun hret => by cases hret⟩, fun _ => ⟨rfl, .refl _⟩⟩
  | signal =>
    obtain ⟨hstage, h⟩ := Option.ite_none_right_eq_some.mp h
    cases h
    apply hs.advance <;> simp [hstage]
  | closeListener =>
    obtain ⟨hstage, h⟩ := Option.ite_none_right_eq_some.mp h
    cases h
    apply hs.advance <;> simp [hstage]
  | beginWait =>
    obtain ⟨hstage, h⟩ := Option.ite_none_right_eq_some.mp h
    cases h
    apply hs.advance <;> simp [hstage]
  | waitReturns =>
    obtain ⟨hwait, h⟩ := Option.ite_none_right_eq_some.mp h
    cases h
    apply hs.advance <;> simp [hwait]
  | expire =>
    obtain ⟨hstage, h⟩ := Option.ite_none_right_eq_some.mp h
    cases h
    apply hs.advance <;> simp [hstage]

theorem new_sound : newTcpShutdown.Sound where
  closing_iff := by decide
  counted := fun conn phase hconn => by cases hconn
  drained := fun hret => by cases hret

theorem Sound.run (hs : s.Sound) (run : List TcpShutdownAction)
    (h : run.foldlM (TcpShutdown.step maxConn) s = some s') : s'.Sound ∧ s.Keeps s' := by
  refine List.foldlM_invariant (I := fun t => t.Sound ∧ s.Keeps t) ?_ run s s' ⟨hs, .refl s⟩ h
  rintro t a t' ⟨ht, hkeeps⟩ hstep
  obtain ⟨ht', hnext⟩ := ht.step a hstep
  exact ⟨ht', hkeeps.trans hnext⟩

end TcpShutdown

/-! ## UDP -/

namespace UdpServer

variable {s s' : UdpServer}

/-- The reader of the session is in its loop. -/
def readingAt (s : UdpServer) (i : Nat) : Bool := (s.objects[i]?).any fun sess => sess.reading

/-- The step creates no session: no reader comes up, and nothing is added to the table. -/
structure Settles (s s' : UdpServer) : Prop where
  closing_eq : s'.closing = s.closing
  length_eq : s'.objects.length = s.objects.length
  reading : ∀ i, s'.readingAt i = true → s.readingAt i = true
  entries : s'.sessions.entries ⊆ s.sessions.entries

/-- The step creates a session with its reader. -/
structure Creates (s s' : UdpServer) : Prop where
  open_before : s.closing = false
  closing_eq : s'.closing = s.closing
  object : ∃ sess, s'.objects = s.objects ++ [sess]
  entry : ∃ key, s'.sessions.entries = ⟨key, s.objects.length⟩ :: s.sessions.entries

/-- Session objects, the table and the flag are untouched. -/
theorem Settles.of_eq (hclosing : s'.closing = s.closing) (hobjects : s'.objects = s.objects)
    (hsessions : s'.sessions = s.sessions) : s.Settles s' :=
  ⟨hclosing, by rw [hobjects], fun i h => by rwa [readingAt, hobjects] at h,
    by rw [hsessions]; exact List.Subset.refl _⟩

theorem Settles.modify (k : Nat) (f : UdpSession → UdpSession)
    (hf : ∀ sess, (f sess).reading = true → sess.reading = true)
    (hclosing : s'.closing = s.closing) (hobjects : s'.objects = s.objects.modify k f)
    (hsessions : s'.sessions = s.sessions) : s.Settles s' := by
  refine ⟨hclosing, by rw [hobjects, List.length_modify], ?_, ?_⟩
  · intro i h
    rw [readingAt, hobjects, List.getElem?_modify] at h
    cases hobj : s.objects[i]? with
    | none => simp [hobj] at h
    | some sess =>
      by_cases hk : k = i
      · simp only [hobj, hk, if_true] at h
        simp [readingAt, hobj, hf sess h]
      · simpa [readingAt, hobj, hk] using h
  · rw [hsessions]
    exact List.Subset.refl _

/-- Removing sessions closes sockets and leaves the readers to find out. -/
theorem Settles.remove (lb : Nat) (takes : String → UdpSession → Bool)
    (hclosing : s'.closing = s.closing) (hobjects : s'.objects = (s.remove lb takes).objects)
    (hsessions : s'.sessions = (s.remove lb takes).sessions) : s.Settles s' := by
  refine ⟨hclosing, by rw [hobjects]; exact List.length_mapIdx, ?_, ?_⟩
  · intro i h
    rw [readingAt, hobjects, remove_object] at h
    cases hobj : s.objects[i]? with
    | none => simp [hobj] at h
    | some sess =>
      simp only [hobj, Option.map_some, Option.any_some] at h
      simp only [readingAt, hobj, Option.any_some]
      split at h <;> exact h
  · rw [hsessions, remove_entries]
    exact List.filter_subset_self _

theorem handle_effect (s : UdpServer) (key clientIP : String) (lb : Nat) (io : HandleIO) :
    s.Settles (s.handle key clientIP lb io).1 ∨ s.Creates (s.handle key clientIP lb io).1 := by
  cases hlb : s.balancers[lb]? with
  | none =>
    -- without a balancer there is nothing to pick from
    left
    refine .of_eq ?_ ?_ ?_
    all_goals
      unfold handle
      split
      · rfl
      · cases s.sessions.lookup key <;> simp [hlb]
  | some balancer =>
    have hspec := s.handle_spec key clientIP io hlb
    generalize s.handle key clientIP lb io = r at hspec ⊢
    cases hspec with
    | created hopen hkey hpick hdial =>
      exact .inr ⟨hopen, rfl, ⟨_, rfl⟩, key, addSession_entries hkey lb _ _ io.now⟩
    | _ => exact .inl (.of_eq rfl rfl rfl)

/-- A step other than `Close` setting the flag. -/
theorem step_effect (s : UdpServer) (op : UdpOp) (hop : op ≠ .beginClose) :
    s.Settles (s.step op) ∨ s.Creates (s.step op) := by
  unfold step
  split
  · exact .inl (.of_eq rfl rfl rfl)
  · cases op with
    | replace algorithm backends => exact .inl (.of_eq rfl rfl rfl)
    | setFlags b healthy draining circuitOpen => exact .inl (.of_eq rfl rfl rfl)
    | datagram key clientIP now =>
      left
      simp only [stepRunning, arrive]
      split
      · exact .of_eq rfl rfl rfl
      · split <;> exact .of_eq rfl rfl rfl
    | handle k io =>
      simp only [stepRunning]
      split
      · rename_i key clientIP lb _
        obtain h | h := s.handle_effect key clientIP lb io
        · exact .inl ⟨h.closing_eq, h.length_eq, h.reading, h.entries⟩
        · exact .inr ⟨h.open_before, h.closing_eq, h.object, h.entry⟩
      · exact .inl (.of_eq rfl rfl rfl)
    | touch k now =>
      left
      simp only [stepRunning]
      split
      · exact .modify _ (UdpSession.touch now) (fun _ h => h) rfl rfl rfl
      · exact .of_eq rfl rfl rfl
    | write k =>
      left
      simp only [stepRunning]
      split <;> exact .of_eq rfl rfl rfl
    | beginEvict => exact .inl (.of_eq rfl rfl rfl)
    | evict k clock =>
      left
      simp only [stepRunning]
      split
      · rename_i lb _
        exact .remove lb (fun key sess => sess.idleDuration (clock key) > s.sessionTimeout) rfl rfl
          rfl
      · exact .of_eq rfl rfl rfl
    | beginClose => exact absurd rfl hop
    | closeSessions =>
      left
      simp only [stepRunning]
      split
      · exact .remove s.poolGetter (fun _ _ => true) rfl rfl rfl
      · exact .of_eq rfl rfl rfl
    | received sess now =>
      refine .inl (.modify sess _ (fun o h => ?_) rfl rfl rfl)
      split at h <;> exact h
    | readError sess =>
      refine .inl (.modify sess _ (fun o h => ?_) rfl rfl rfl)
      split at h
      · cases h
      · exact h

end UdpServer

namespace UdpShutdown

variable {s s' : UdpShutdown}

/-- The flag says whether `Close` has been called; the table names sessions that exist;
    the group counts every reader in its loop and the eviction goroutine; and what
    `Close` has done so far holds: the table is empty once it is swept, the eviction
    goroutine is registered once the wait has begun, and after a successful return the
    group counts nothing. -/
structure Sound (s : UdpShutdown) : Prop where
  closing_iff : s.server.closing = true ↔ s.close ≠ .notCalled
  valid : ∀ e ∈ s.server.sessions.entries, e.2 < s.server.objects.length
  counted : ∀ i, s.server.readingAt i = true → Counted.running (.reader i) ∈ s.wg.tasks
  evictor : s.serve ≠ .notCalled → .evictor ∈ s.wg.works
  swept : s.close = .swept ∨ s.close.waits = true → s.server.sessions.entries = []
  served : s.close.waits = true → s.serve = .reading
  drained : s.close = .returned true → s.wg.counter = 0

/-- The sessions whose readers have been registered. -/
def readers (s : UdpShutdown) : List UdpTask := s.wg.works.filter (· ≠ .evictor)

/-- What a step leaves as it is from the flag on, and from the wait on. -/
structure Keeps (s s' : UdpShutdown) : Prop where
  closing : s.server.closing = true → s'.server.closing = true ∧ s'.readers = s.readers
  waits : s.close.waits = true → s'.close.waits = true ∧ s.wg.WindsDown s'.wg

theorem Keeps.refl (s : UdpShutdown) : s.Keeps s :=
  ⟨fun h => ⟨h, rfl⟩, fun h => ⟨h, .refl _⟩⟩

theorem Keeps.trans {s'' : UdpShutdown} (h : s.Keeps s') (h' : s'.Keeps s'') : s.Keeps s'' := by
  constructor
  · intro hclosing
    obtain ⟨hmid, hreaders⟩ := h.closing hclosing
    obtain ⟨hend, hreaders'⟩ := h'.closing hmid
    exact ⟨hend, hreaders'.trans hreaders⟩
  · intro hwaits
    obtain ⟨hmid, hdown⟩ := h.waits hwaits
    obtain ⟨hend, hdown'⟩ := h'.waits hmid
    exact ⟨hend, hdown.trans hdown'⟩

/-- A step of the server that creates no session. -/
theorem Sound.settles (hs : s.Sound) {server : UdpServer} (h : s.server.Settles server) :
    Sound { s with server } where
  closing_iff := by rw [h.closing_eq]; exact hs.closing_iff
  valid := fun e he => by rw [h.length_eq]; exact hs.valid e (h.entries he)
  counted := fun i hi => hs.counted i (h.reading i hi)
  evictor := hs.evictor
  swept := fun hstage => List.eq_nil_of_subset_nil (hs.swept hstage ▸ h.entries)
  served := hs.served
  drained := hs.drained

/-- A step of the server that creates one comes before `Close`. -/
theorem Sound.creates (hs : s.Sound) {server : UdpServer} (h : s.server.Creates server) :
    s.close = .notCalled ∧
      Sound { s with server, wg := s.wg.start (.reader s.server.objects.length) } := by
  have hnot : s.close = .notCalled := by
    by_contra hne
    have := hs.closing_iff.mpr hne
    rw [h.open_before] at this
    cases this
  obtain ⟨sess, hobjects⟩ := h.object
  obtain ⟨key, hentries⟩ := h.entry
  refine ⟨hnot, ?_⟩
  constructor
  · rw [h.closing_eq]
    exact hs.closing_iff
  · intro e he
    rw [hentries] at he
    rw [hobjects, List.length_append, List.length_singleton]
    obtain rfl | hold := List.mem_cons.mp he
    · exact Nat.lt_succ_self _
    · have := hs.valid e hold
      omega
  · intro i hi
    -- the reader of the new session, or one that was there
    by_cases hnew : i = s.server.objects.length
    · subst hnew
      exact s.wg.running_self_mem_start _
    · refine s.wg.running_mem_start (hs.counted i ?_)
      rw [UdpServer.readingAt, hobjects, List.getElem?_append] at hi
      split at hi
      · exact hi
      · rw [List.getElem?_eq_none (by simp; omega)] at hi
        cases hi
  · intro hserve
    rw [WaitGroup.works_start]
    exact List.mem_append_left _ (hs.evictor hserve)
  · simp [hnot, CloseStage.waits]
  · simp [hnot, CloseStage.waits]
  · simp [hnot]

theorem Sound.op (hs : s.Sound) {op : UdpOp} (hop : s.possible op = true) :
    Sound { s with
      server := s.server.step op, wg := register s.wg s.server (s.server.step op) } ∧
    s.Keeps { s with
      server := s.server.step op, wg := register s.wg s.server (s.server.step op) } := by
  have hne : op ≠ .beginClose := by
    rintro rfl
    cases hop
  obtain h | h := s.server.step_effect op hne
  · have hwg : register s.wg s.server (s.server.step op) = s.wg :=
      if_neg (by rw [h.length_eq]; exact Nat.lt_irrefl _)
    rw [hwg]
    refine ⟨hs.settles h, fun hclosing => ⟨?_, rfl⟩, fun hwaits => ⟨hwaits, .refl _⟩⟩
    rwa [h.closing_eq]
  · obtain ⟨sess, hobjects⟩ := h.object
    have hwg : register s.wg s.server (s.server.step op) =
        s.wg.start (.reader s.server.objects.length) :=
      if_pos (by rw [hobjects, List.length_append]; exact Nat.lt_succ_self _)
    rw [hwg]
    obtain ⟨hnot, hsound⟩ := hs.creates h
    refine ⟨hsound, fun hclosing => ?_, fun hwaits => ?_⟩
    · rw [h.open_before] at hclosing
      cases hclosing
    · rw [hnot] at hwaits
      cases hwaits

/-- `Close` leaves the table empty, whichever sessions it has. -/
theorem Sound.closeSessions_entries (hs : s.Sound) (hrunning : s.server.crashed = false)
    (hclosing : s.server.closing = true) :
    (s.server.step .closeSessions).sessions.entries = [] := by
  rw [UdpServer.step_of_running hrunning, UdpServer.stepRunning, if_pos hclosing,
    UdpServer.remove_entries, List.filter_eq_nil_iff]
  intro e he
  have hlt := hs.valid e he
  simp [List.getElem?_eq_getElem hlt]

/-- A call of `Close` that has set the flag goes on. -/
theorem Sound.advance (hs : s.Sound) (next : CloseStage) (hstage : s.close ≠ .notCalled)
    (hnext : next ≠ .notCalled)
    (hswept : next = .swept ∨ next.waits = true → s.server.sessions.entries = [])
    (hserved : next.waits = true → s.serve = .reading)
    (hdrained : next = .returned true → s.wg.counter = 0)
    (hwaits : s.close.waits = true → next.waits = true) :
    Sound { s with close := next } ∧ s.Keeps { s with close := next } := by
  have hclosing := hs.closing_iff.mpr hstage
  exact ⟨⟨by simp [hclosing, hnext], hs.valid, hs.counted, hs.evictor, hswept, hserved, hdrained⟩,
    fun hclosing => ⟨hclosing, rfl⟩, fun h => ⟨hwaits h, .refl _⟩⟩

/-- `Serve` registers the eviction goroutine before the wait can begin. -/
theorem Sound.registerEvictor (hs : s.Sound) (hserve : s.serve = .notCalled) :
    Sound { s with serve := .registered, wg := s.wg.start .evictor } ∧
      s.Keeps { s with serve := .registered, wg := s.wg.start .evictor } := by
  have hnot : ¬ s.close.waits = true := by
    intro hwaits
    rw [hs.served hwaits] at hserve
    cases hserve
  -- the flag may be set already: the evictor is no reader
  refine ⟨⟨hs.closing_iff, hs.valid, ?_, ?_, hs.swept, ?_, ?_⟩, ?_, ?_⟩
  · exact fun i hi => s.wg.running_mem_start (hs.counted i hi)
  · simp [WaitGroup.works_start]
  · exact fun hwaits => absurd hwaits hnot
  · intro hret
    exact absurd (by rw [hret]; rfl) hnot
  · exact fun hclosing => ⟨hclosing, by simp [readers, WaitGroup.works_start]⟩
  · exact fun hwaits => absurd hwaits hnot

theorem Sound.done (hs : s.Sound) {k : Nat} {task : UdpTask}
    (hk : s.wg.tasks[k]? = some (.running task)) (hexited : s.exited task = true) :
    Sound { s with wg := s.wg.finish k task hk } ∧
      s.Keeps { s with wg := s.wg.finish k task hk } := by
  have hworks := s.wg.works_finish k task hk
  refine ⟨⟨hs.closing_iff, hs.valid, ?_, ?_, hs.swept, hs.served, ?_⟩, ?_, ?_⟩
  · intro i hi
    refine s.wg.running_mem_finish hk (hs.counted i hi) ?_
    -- a reader that is done has left its loop
    rintro rfl
    simp only [exited, UdpServer.readingAt] at hexited hi
    cases hobj : s.server.objects[i]? <;> simp_all
  · intro hserve
    rw [hworks]
    exact hs.evictor hserve
  · intro hret
    have := hs.drained hret
    show s.wg.counter - 1 = 0
    omega
  · exact fun hclosing => ⟨hclosing, by rw [readers, readers, hworks]⟩
  · exact fun hwaits => ⟨hwaits, .finish _ _ _ hk⟩

/-- `Close` sets the flag. -/
theorem Sound.mark (hs : s.Sound) (hrunning : s.server.crashed = false)
    (hstage : s.close = .notCalled) :
    Sound { s with server := s.server.step .beginClose, close := .marked } ∧
      s.Keeps { s with server := s.server.step .beginClose, close := .marked } := by
  rw [UdpServer.step_of_running hrunning]
  refine ⟨⟨by simp [UdpServer.stepRunning], hs.valid, hs.counted, hs.evictor, ?_, ?_, ?_⟩,
    fun _ => ⟨rfl, rfl⟩, fun hwaits => ?_⟩
  · simp [CloseStage.waits]
  · simp [CloseStage.waits]
  · simp
  · rw [hstage] at hwaits
    cases hwaits

/-- `Close` deletes the sessions. -/
theorem Sound.closeSessions (hs : s.Sound) (hrunning : s.server.crashed = false)
    (hstage : s.close = .stopped) :
    Sound { s with server := s.server.step .closeSessions, close := .swept } ∧
      s.Keeps { s with server := s.server.step .closeSessions, close := .swept } := by
  have hclosing : s.server.closing = true := hs.closing_iff.mpr (by simp [hstage])
  have hset : s.server.Settles (s.server.step .closeSessions) := by
    refine (s.server.step_effect .closeSessions (by simp)).resolve_right fun hcreates => ?_
    rw [hcreates.open_before] at hclosing
    cases hclosing
  have hempty := hs.closeSessions_entries hrunning hclosing
  have hkeeps : s.Keeps { s with server := s.server.step .closeSessions } :=
    ⟨fun _ => ⟨by rwa [hset.closing_eq], rfl⟩, fun hwaits => ⟨hwaits, .refl _⟩⟩
  obtain ⟨hsound, hkeeps'⟩ := (hs.settles hset).advance .swept (by simp [hstage]) (by simp)
    (fun _ => hempty) (by simp [CloseStage.waits]) (by simp) (by simp [hstage, CloseStage.waits])
  exact ⟨hsound, hkeeps.trans hkeeps'⟩

/-- The invariant is kept; from the flag on no reader is registered, and from the wait on
    nothing is. -/
theorem Sound.step (hs : s.Sound) (a : UdpShutdownAction) (h : s.step a = some s') :
    s'.Sound ∧ s.Keeps s' := by
  obtain ⟨hrunning, h⟩ := Option.ite_none_left_eq_some.mp h
  rw [Bool.not_eq_true] at hrunning
  cases a with
  | op op =>
    obtain ⟨hop, h⟩ := Option.ite_none_right_eq_some.mp h
    cases h
    exact hs.op hop
  | registerEvictor =>
    obtain ⟨hserve, h⟩ := Option.ite_none_right_eq_some.mp h
    cases h
    exact hs.registerEvictor hserve
  | announceEvictor =>
    obtain ⟨hserve, h⟩ := Option.ite_none_right_eq_some.mp h
    cases h
    have hevictor := hs.evictor (by simp [hserve])
    exact ⟨⟨hs.closing_iff, hs.valid, hs.counted, fun _ => hevictor, hs.swept, fun _ => rfl,
      hs.drained⟩, fun hclosing => ⟨hclosing, rfl⟩, fun hwaits => ⟨hwaits, .refl _⟩⟩
  | evictorExits =>
    obtain ⟨-, h⟩ := Option.ite_none_right_eq_some.mp h
    cases h
    exact ⟨⟨hs.closing_iff, hs.valid, hs.counted, hs.evictor, hs.swept, hs.served,
      hs.drained⟩, fun hclosing => ⟨hclosing, rfl⟩, fun hwaits => ⟨hwaits, .refl _⟩⟩
  | done k =>
    simp only [stepRunning] at h
    split at h
    case h_2 => cases h
    case h_1 task hk =>
      obtain ⟨hexited, h⟩ := Option.ite_none_right_eq_some.mp h
      cases h
      exact hs.done hk hexited
  | mark =>
    obtain ⟨hstage, h⟩ := Option.ite_none_right_eq_some.mp h
    cases h
    exact hs.mark hrunning hstage
  | signal =>
    obtain ⟨hstage, h⟩ := Option.ite_none_right_eq_some.mp h
    cases h
    apply hs.advance .signalled <;> simp [hstage, CloseStage.waits]
  | closeListener =>
    obtain ⟨hstage, h⟩ := Option.ite_none_right_eq_some.mp h
    cases h
    apply hs.advance .stopped <;> simp [hstage, CloseStage.waits]
  | closeSessions =>
    obtain ⟨hstage, h⟩ := Option.ite_none_right_eq_some.mp h
    cases h
    exact hs.closeSessions hrunning hstage
  | beginWait =>
    obtain ⟨hstage, h⟩ := Option.ite_none_right_eq_some.mp h
    cases h
    apply hs.advance .waiting <;>
      simp [hstage.1, hstage.2, hs.swept (.inl hstage.1), CloseStage.waits]
  | waitReturns =>
    obtain ⟨hstage, h⟩ := Option.ite_none_right_eq_some.mp h
    cases h
    have hwaits : s.close.waits = true := by rw [hstage.1]; rfl
    apply hs.advance (.returned true) <;>
      simp [hstage.1, hstage.2, hs.swept (.inr hwaits), hs.served hwaits, CloseStage.waits]
  | expire =>
    obtain ⟨hstage, h⟩ := Option.ite_none_right_eq_some.mp h
    cases h
    have hwaits : s.close.waits = true := by rw [hstage]; rfl
    apply hs.advance (.returned false) <;>
      simp [hstage, hs.swept (.inr hwaits), hs.served hwaits, CloseStage.waits]

theorem Sound.run (hs : s.Sound) (run : List UdpShutdownAction)
    (h : run.foldlM UdpShutdown.step s = some s') : s'.Sound ∧ s.Keeps s' := by
  refine List.foldlM_invariant (I := fun t => t.Sound ∧ s.Keeps t) ?_ run s s' ⟨hs, .refl s⟩ h
  rintro t a t' ⟨ht, hkeeps⟩ hstep
  obtain ⟨ht', hnext⟩ := ht.step a hstep
  exact ⟨ht', hkeeps.trans hnext⟩

theorem new_sound (rateLimit : Option Ratelimit.Limiter) (sessionTimeout : Duration)
    (servers : Nat → Balancer.Server) (lb : Balancer.LoadBalancer Nat) :
    (newUdpShutdown (newUdpServer rateLimit sessionTimeout servers lb)).Sound := by
  constructor <;> simp [newUdpShutdown, newUdpServer, UdpServer.readingAt, CloseStage.waits]

end UdpShutdown

/-! ## All three -/

/-- For every interleaving of `Close` with the accept loop and the handlers of a TCP or
    TLS passthrough server, and with `Serve`, the datagram handlers, the eviction
    goroutine and the session readers of a UDP server. From a state in which `closing` is
    set, no handler and no reader is registered; from one in which the wait has begun,
    nothing is; and from one in which `Close` has returned `nil` on, every goroutine that
    was ever registered has finished, no connection is being handled, no session is being
    read, and the session table is empty. -/
theorem shutdown_drains :
    (∀ (maxConn : Int) (before after : List TcpShutdownAction) (s s' : TcpShutdown),
      before.foldlM (TcpShutdown.step maxConn) newTcpShutdown = some s →
      after.foldlM (TcpShutdown.step maxConn) s = some s' →
      (s.server.closing = true → s'.wg.works = s.wg.works) ∧
      (s.close.waits = true → s'.wg.works = s.wg.works) ∧
      (s.close = .returned true → (∀ t ∈ s'.wg.tasks, t.isRunning = false) ∧
        ∀ phase ∈ s'.server.sem.clients, phase.handled = false)) ∧
    (∀ (rateLimit : Option Ratelimit.Limiter) (sessionTimeout : Duration)
      (servers : Nat → Balancer.Server) (lb : Balancer.LoadBalancer Nat)
      (before after : List UdpShutdownAction) (s s' : UdpShutdown),
      before.foldlM UdpShutdown.step
        (newUdpShutdown (newUdpServer rateLimit sessionTimeout servers lb)) = some s →
      after.foldlM UdpShutdown.step s = some s' →
      (s.server.closing = true → s'.readers = s.readers) ∧
      (s.close.waits = true → s'.wg.works = s.wg.works) ∧
      (s.close = .returned true → (∀ t ∈ s'.wg.tasks, t.isRunning = false) ∧
        UdpTask.evictor ∈ s'.wg.works ∧ (∀ i, s'.server.readingAt i = false) ∧
        s'.server.sessions.entries = [])) := by
  constructor
  · intro maxConn before after s s' hbefore hafter
    have hs := (TcpShutdown.new_sound.run before hbefore).1
    obtain ⟨hs', hdown⟩ := hs.run after hafter
    have hflag : s.close ≠ .notCalled → s.wg.WindsDown s'.wg := fun hne =>
      (hdown (hs.closing_iff.mpr hne)).2
    refine ⟨fun hclosing => (hdown hclosing).2.1, fun hwaits => (hflag ?_).1, fun hret => ?_⟩
    · intro hnot
      rw [hnot] at hwaits
      cases hwaits
    · have hdone : ∀ t ∈ s'.wg.tasks, t.isRunning = false := fun t ht =>
        (hflag (by simp [hret])).not_running (hs.drained hret) ht
      refine ⟨hdone, fun phase hmem => ?_⟩
      -- a connection that is being handled would be counted
      by_contra hphase
      obtain ⟨conn, hconn⟩ := List.mem_iff_getElem?.mp hmem
      have hrunning := hs'.counted conn phase hconn (by simpa using hphase)
      cases hdone _ hrunning
  · intro rateLimit sessionTimeout servers lb before after s s' hbefore hafter
    have hs := ((UdpShutdown.new_sound rateLimit sessionTimeout servers lb).run before hbefore).1
    obtain ⟨hs', hkeeps⟩ := hs.run after hafter
    refine ⟨fun h => (hkeeps.closing h).2, fun h => (hkeeps.waits h).2.1, fun hret => ?_⟩
    obtain ⟨hwaits', hdown⟩ := hkeeps.waits (by rw [hret]; rfl)
    have hdone : ∀ t ∈ s'.wg.tasks, t.isRunning = false := fun t ht =>
      hdown.not_running (hs.drained hret) ht
    refine ⟨hdone, hs'.evictor (by simp [hs'.served hwaits']), fun i => ?_,
      hs'.swept (.inr hwaits')⟩
    -- a reader in its loop would be counted
    by_contra hreading
    cases hdone _ (hs'.counted i (by simpa using hreading))

/-- A connection that is being handled when `Close` is called. -/
def closedDuringConnection : List TcpShutdownAction :=
  [.serve .accept, .serve .select, .serve .lock, .mark, .signal, .closeListener, .beginWait,
    .serve (.handled 0), .serve (.release 0), .done 0, .waitReturns]

/-- A session that is being read when `Close` is called. -/
def closedDuringSession : List UdpShutdownAction :=
  [.registerEvictor, .announceEvictor] ++ (newClient "10.0.0.9:4000" 0 1).map .op ++
    [.mark, .signal, .closeListener, .closeSessions, .beginWait, .op (.readError 0), .evictorExits,
      .done 0, .done 1, .waitReturns]

theorem shutdown_drains_one :
    (∃ s, closedDuringConnection.foldlM (TcpShutdown.step 10) newTcpShutdown = some s ∧
      s.wg.works = [0] ∧ ∀ t ∈ s.wg.tasks, t.isRunning = false) ∧
    (∃ s, closedDuringSession.foldlM UdpShutdown.step (newUdpShutdown dnsProxy) = some s ∧
      s.wg.works = [.evictor, .reader 0] ∧ s.server.sessions.entries = []) := by
  constructor
  · have hrun : (closedDuringConnection.foldlM (TcpShutdown.step 10) newTcpShutdown).map
        (fun s => (s.close, s.wg.works)) = some (.returned true, [0]) := by decide +kernel
    obtain ⟨s, hs, hview⟩ := Option.map_eq_some_iff.mp hrun
    obtain ⟨hclose, hworks⟩ := Prod.mk.inj hview
    exact ⟨s, hs, hworks, ((shutdown_drains.1 10 _ [] s s hs rfl).2.2 hclose).1⟩
  · have hrun : (closedDuringSession.foldlM UdpShutdown.step (newUdpShutdown dnsProxy)).map
        (fun s => (s.close, s.wg.works)) = some (.returned true, [.evictor, .reader 0]) := by
      decide +kernel
    obtain ⟨s, hs, hview⟩ := Option.map_eq_some_iff.mp hrun
    obtain ⟨hclose, hworks⟩ := Prod.mk.inj hview
    obtain ⟨-, -, -, hempty⟩ := (shutdown_drains.2 _ _ _ _ _ [] s s hs rfl).2.2 hclose
    exact ⟨s, hs, hworks, hempty⟩

end HootLb.L4
