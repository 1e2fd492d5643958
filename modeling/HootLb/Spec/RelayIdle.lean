import HootLb.ForStd.Trace
import HootLb.Native.Relay

/-!
# The idle timeout of a relay

The comment on `relay` has the deadlines reset whenever data is forwarded. They are
set once, by the goroutine that writes to the connection and before it copies
anything, so that a connection expires `idleTimeout` after that, whatever is
forwarded meanwhile.

## Key results

- `DeadlineFixed`: the deadline of a connection is the start of its goroutine plus
  `idleTimeout`, in every state of every run
- `idle_timeout_iff`: the runs in which no deadline is met, and those in which the
  deadlines keep up with the forwarded chunks
- `busy_relay_times_out`: a relay that is never idle for as long as `idleTimeout` and
  ends with a timeout
-/

namespace HootLb.L4

abbrev RelayStep := Transition RelayState RelayAction

namespace NetConn

@[simp] theorem sock_onSock (f : Sock → Sock) (c : NetConn) : (c.onSock f).sock = f c.sock := by
  cases c <;> rfl

@[simp] theorem closeWrite_deadline (c : NetConn) :
    c.closeWrite.sock.deadline = c.sock.deadline := by
  cases c <;> rfl

@[simp] theorem closeWrite_written (c : NetConn) : c.closeWrite.sock.written = c.sock.written := by
  cases c <;> rfl

end NetConn

theorem Sock.read_deadline (now : Int) (event : ReadEvent) (s : Sock) (n : Nat) :
    (Sock.read now event s n).2.deadline = s.deadline := by
  unfold Sock.read
  split
  · rfl
  · cases event <;> rfl

/-- Only an expired deadline gives a timeout. -/
theorem Sock.read_timeout_iff (now : Int) (event : ReadEvent) (s : Sock) (n : Nat) :
    (Sock.read now event s n).1.2 = some .timeout ↔ s.expired now := by
  unfold Sock.read
  split
  · simp_all
  · cases event with
    | eof => by_cases h : s.inbound = [] <;> simp_all
    | data k => simp_all
    | peerError => simp_all

theorem NetConn.read_deadline (now : Int) (event : ReadEvent) (c : NetConn) (n : Nat) :
    (NetConn.read now event c n).2.sock.deadline = c.sock.deadline := by
  cases c with
  | tcp conn => exact Sock.read_deadline now event conn n
  | buffered bc =>
    simp only [NetConn.read, BufferedConn.read]
    split
    · rfl
    · exact Sock.read_deadline now event bc.conn n

/-- Held bytes are read whatever the deadline is. -/
theorem NetConn.read_timeout_iff (now : Int) (event : ReadEvent) (c : NetConn) (n : Nat) :
    (NetConn.read now event c n).1.2 = some .timeout ↔ c.held = [] ∧ c.sock.expired now := by
  cases c with
  | tcp conn => simpa [NetConn.read, held, sock] using Sock.read_timeout_iff now event conn n
  | buffered bc =>
    simp only [NetConn.read, BufferedConn.read, held, sock]
    by_cases h : bc.remaining = []
    · simpa [h] using Sock.read_timeout_iff now event bc.conn n
    · simp [h, List.length_pos_iff]

/-- When the action happens, if that matters. -/
def RelayAction.time : RelayAction → Option Int
  | .begin _ now | .read _ _ now | .write _ _ now => some now
  | _ => none

namespace RelayState

variable {idleTimeout : Duration}

/-! ## What a step does to a deadline and to a phase -/

/-- The connection that a step reads from or writes to, and when. -/
def socketUse (s : RelayState) : RelayAction → Option (Party × Int)
  | .read dst _ now =>
    if s.phase dst = .reading ∧ (s.conns dst.other).held = [] then some (dst.other, now) else none
  | .write dst _ now =>
    match s.phase dst with
    | .writing _ => some (dst, now)
    | _ => none
  | _ => none

/-- When the action starts the goroutine that writes to `p`. -/
def begins (p : Party) : RelayAction → Option Int
  | .begin dst now => if dst = p then some now else none
  | _ => none

/-- A deadline changes when the goroutine that writes to the connection starts. -/
theorem step_deadline (hidle : 0 < idleTimeout) (s : RelayState) (a : RelayAction) (p : Party) :
    ((s.step idleTimeout a).conns p).sock.deadline =
      if s.phase p = .start then ((begins p a).map (· + idleTimeout)).or (s.conns p).sock.deadline
      else (s.conns p).sock.deadline := by
  cases a with
  | begin dst now =>
    by_cases hp : dst = p
    · subst hp
      cases hphase : s.phase dst <;>
        simp [step, hphase, hidle, begins, setConn, NetConn.setDeadline]
    · cases hphase : s.phase dst <;>
        simp [step, hphase, hidle, begins, setConn, NetConn.setDeadline, hp, Ne.symm hp]
  | read dst event now | write dst k now | writeFails dst | finish dst | close =>
    -- only the start of a goroutine calls `SetDeadline`
    simp only [begins, Option.map_none, Option.none_or, ite_self]
    apply step_conn idleTimeout s _ p (fun c => c.sock.deadline = (s.conns p).sock.deadline) rfl
    · intro now h
      cases h
    · intro now event
      exact NetConn.read_deadline now event (s.conns p) copyBufferSize
    · intro bytes
      simp [NetConn.write]
    · simp

/-- A goroutine that a step sets to a phase other than the start is not at its start, and
    the others stay where they are. -/
theorem update_start_iff {phase : Party → CopyPhase} {dst p : Party} {next : CopyPhase}
    (h : phase dst ≠ .start) (hnext : next ≠ .start) :
    Function.update phase dst next p = .start ↔ phase p = .start := by
  by_cases hp : p = dst
  · subst hp
    simp [h, hnext]
  · simp [hp]

/-- A goroutine leaves its start when it begins. -/
theorem step_start_iff (s : RelayState) (a : RelayAction) (p : Party) :
    (s.step idleTimeout a).phase p = .start ↔ s.phase p = .start ∧ begins p a = none := by
  cases a with
  | begin dst now =>
    by_cases hp : dst = p
    · subst hp
      cases hphase : s.phase dst <;> simp [step, hphase, begins]
    · cases hphase : s.phase dst <;> by_cases hidle : idleTimeout > 0 <;>
        simp [step, hphase, begins, hp, Ne.symm hp, hidle]
  | read dst event now =>
    simp only [begins, and_true, step]
    split
    case h_1 h =>
      rcases NetConn.read now event (s.conns dst.other) copyBufferSize with ⟨⟨chunk, err⟩, conn⟩
      cases err with
      | none => exact update_start_iff (by simp [h]) (by split <;> simp)
      | some why => exact update_start_iff (by simp [h]) (by simp)
    case h_2 => rfl
  | write dst k now =>
    simp only [begins, and_true, step]
    split
    case h_1 chunk h =>
      split
      · exact update_start_iff (by simp [h]) (by simp)
      · exact update_start_iff (by simp [h]) (by split <;> simp)
    case h_2 => rfl
  | writeFails dst =>
    simp only [begins, and_true, step]
    split
    case h_1 chunk h => exact update_start_iff (by simp [h]) (by simp)
    case h_2 => rfl
  | finish dst =>
    simp only [begins, and_true, step]
    split
    case h_1 why h => exact update_start_iff (by simp [h]) (by simp)
    case h_2 => rfl
  | close =>
    simp only [begins, and_true, step]
    split <;> rfl

/-- The step ends a copy because of a deadline. -/
def timesOut (t : RelayStep) : Prop :=
  ∃ p, t.after.phase p = .copied .timeout ∧ t.before.phase p ≠ .copied .timeout

/-- Setting a phase is the end of a copy because of a deadline exactly when that is the
    phase. -/
theorem timesOut_update {s s' : RelayState} (a : RelayAction) (dst : Party) (next : CopyPhase)
    (h : s.phase dst ≠ .copied .timeout) (hs : s'.phase = Function.update s.phase dst next) :
    timesOut ⟨s, a, s'⟩ ↔ next = .copied .timeout := by
  constructor
  · rintro ⟨p, hafter, hbefore⟩
    rw [hs] at hafter
    by_cases hp : p = dst
    · subst hp
      simpa using hafter
    · exact absurd (by simpa [hp] using hafter) hbefore
  · rintro rfl
    exact ⟨dst, by simp [hs], h⟩

theorem not_timesOut {s s' : RelayState} (a : RelayAction) (hs : s'.phase = s.phase) :
    ¬ timesOut ⟨s, a, s'⟩ := by
  rintro ⟨p, h, hne⟩
  exact hne (by rw [← h, hs])

/-- The step uses a connection whose deadline has expired. -/
def meetsDeadline (s : RelayState) (a : RelayAction) : Bool :=
  (s.socketUse a).any fun (p, now) => (s.conns p).sock.expired now

/-- A copy ends because of a deadline when it uses an expired connection and only then. -/
theorem timesOut_iff (s : RelayState) (a : RelayAction) :
    timesOut ⟨s, a, s.step idleTimeout a⟩ ↔ s.meetsDeadline a := by
  cases a with
  | begin dst now =>
    simp only [meetsDeadline, socketUse, Option.any_none, Bool.false_eq_true, iff_false, step]
    split
    case h_1 h =>
      rw [timesOut_update _ dst .reading (by simp [h]) (by split <;> rfl)]
      simp
    case h_2 => exact not_timesOut _ rfl
  | read dst event now =>
    have htimeout := NetConn.read_timeout_iff now event (s.conns dst.other) copyBufferSize
    by_cases h : s.phase dst = .reading
    · rcases hr : NetConn.read now event (s.conns dst.other) copyBufferSize with
        ⟨⟨chunk, err⟩, conn⟩
      rw [hr] at htimeout
      have huse : s.meetsDeadline (.read dst event now) = true ↔ err = some .timeout := by
        by_cases hheld : (s.conns dst.other).held = [] <;>
          simp [meetsDeadline, socketUse, h, htimeout, hheld]
      rw [huse]
      simp only [step, h, hr]
      cases err with
      | none =>
        rw [timesOut_update _ dst _ (by simp [h]) rfl]
        split <;> simp
      | some why =>
        rw [timesOut_update _ dst _ (by simp [h]) rfl, CopyPhase.copied.injEq, Option.some.injEq]
    · have hstep : s.step idleTimeout (.read dst event now) = s := by simp [step]
      simp [meetsDeadline, socketUse, h, not_timesOut, hstep]
  | write dst k now =>
    cases h : s.phase dst with
    | writing chunk =>
      simp only [meetsDeadline, socketUse, step, h, Option.any_some]
      split
      case isTrue hexp => rw [timesOut_update _ dst _ (by simp [h]) rfl]; simp [hexp]
      case isFalse hexp =>
        rw [timesOut_update _ dst _ (by simp [h]) rfl]
        split <;> simp [hexp]
    | start | reading | copied | finished =>
      simp [meetsDeadline, socketUse, step, h, not_timesOut]
  | writeFails dst =>
    simp only [meetsDeadline, socketUse, Option.any_none, Bool.false_eq_true, iff_false, step]
    split
    case h_1 chunk h => rw [timesOut_update _ dst _ (by simp [h]) rfl]; simp
    case h_2 => exact not_timesOut _ rfl
  | finish dst =>
    simp only [meetsDeadline, socketUse, Option.any_none, Bool.false_eq_true, iff_false, step]
    split
    case h_1 why h =>
      rintro ⟨p, hafter, hbefore⟩
      by_cases hp : p = dst
      · subst hp
        simp at hafter
      · exact hbefore (by simpa [hp] using hafter)
    case h_2 => exact not_timesOut _ rfl
  | close =>
    simp only [meetsDeadline, socketUse, Option.any_none, Bool.false_eq_true, iff_false, step]
    split <;> exact not_timesOut _ rfl

/-! ## Runs -/

/-- When the goroutine that writes to `p` started. -/
def begunAt (p : Party) (past : List RelayStep) : Option Int :=
  past.findSome? fun t => begins p t.action

theorem begunAt_concat (p : Party) (past : List RelayStep) (t : RelayStep) :
    begunAt p (past ++ [t]) = (begunAt p past).or (begins p t.action) := by
  simp [begunAt, List.findSome?_append]

/-- Each deadline is the start of the goroutine that writes to the connection, plus
    `idleTimeout`. -/
def DeadlineFixed (idleTimeout : Duration) (s : RelayState) (past : List RelayStep) : Prop :=
  ∀ p, (s.conns p).sock.deadline = (begunAt p past).map (· + idleTimeout) ∧
    (s.phase p = .start ↔ begunAt p past = none)

theorem deadlineFixed_step (hidle : 0 < idleTimeout) (s : RelayState) (past : List RelayStep)
    (a : RelayAction) (h : DeadlineFixed idleTimeout s past) :
    DeadlineFixed idleTimeout (s.step idleTimeout a)
      (past ++ [⟨s, a, s.step idleTimeout a⟩]) := by
  intro p
  obtain ⟨hdeadline, hstart⟩ := h p
  rw [step_deadline hidle, step_start_iff, begunAt_concat, hdeadline]
  cases hbegun : begunAt p past with
  | none => simp [hstart.mpr hbegun]
  | some b =>
    have hne : s.phase p ≠ .start := fun hs => by simp [hstart.mp hs] at hbegun
    simp [hne]

/-- The connections that a relay is called with have no deadline. -/
theorem deadlineFixed_start {client backend : NetConn} (hclient : client.sock.deadline = none)
    (hbackend : backend.sock.deadline = none) :
    DeadlineFixed idleTimeout (startRelay client backend) [] := by
  intro p
  cases p
  · exact ⟨hclient, by simp [startRelay, begunAt]⟩
  · exact ⟨hbackend, by simp [startRelay, begunAt]⟩

/-- When the step has forwarded bytes. -/
def forwardedAt (t : RelayStep) : Option Int :=
  match t.action with
  | .write dst _ now =>
    if (t.after.conns dst).sock.written = (t.before.conns dst).sock.written then none else some now
  | _ => none

/-- When bytes were last forwarded in either direction, or else the start of the relay. -/
def lastForwarded (start : Int) (past : List RelayStep) : Int :=
  past.foldl (fun last t => (forwardedAt t).getD last) start

theorem lastForwarded_concat (start : Int) (past : List RelayStep) (t : RelayStep) :
    lastForwarded start (past ++ [t]) = (forwardedAt t).getD (lastForwarded start past) := by
  simp [lastForwarded]

/-- The clock does not go back. -/
def Clock (start : Int) (run : List RelayAction) : Prop :=
  (start :: run.filterMap RelayAction.time).Pairwise (· ≤ ·)

theorem lastForwarded_mem (start : Int) (past : List RelayStep) :
    lastForwarded start past ∈ start :: (past.map (·.action)).filterMap RelayAction.time := by
  induction past using List.reverseRecOn with
  | nil => simp [lastForwarded]
  | append_singleton past t ih =>
    rw [lastForwarded_concat, List.map_append, List.filterMap_append, ← List.cons_append,
      List.mem_append]
    cases hfwd : forwardedAt t with
    | none => exact .inl ih
    | some now =>
      right
      obtain ⟨before, action, after⟩ := t
      cases action <;> simp_all [forwardedAt, RelayAction.time]

variable {start : Int} {client backend : NetConn} {run : List RelayAction} {past : List RelayStep}
  {t : RelayStep} {rest : List RelayStep}

/-- The steps of a relay. -/
def relaySteps (idleTimeout : Duration) (client backend : NetConn) (run : List RelayAction) :
    List RelayStep :=
  Transition.trace (step idleTimeout) (startRelay client backend) run

/-- No use of a connection meets an expired deadline: a copy ends by `EOF` or by an error
    of a peer. -/
def NeverTimesOut (steps : List RelayStep) : Prop := ∀ t ∈ steps, ¬ timesOut t

/-- After each step, every deadline lies `idleTimeout` or more after the last forwarded
    bytes. -/
def DeadlinesFollow (idleTimeout : Duration) (start : Int) (steps : List RelayStep) : Prop :=
  ∀ past t rest, steps = past ++ t :: rest → ∀ p d, (t.after.conns p).sock.deadline = some d →
    lastForwarded start (past ++ [t]) + idleTimeout ≤ d

/-- Every use of a connection comes less than `idleTimeout` after the start of the
    goroutine that writes to it. -/
def UsedInTime (idleTimeout : Duration) (steps : List RelayStep) : Prop :=
  ∀ past t rest, steps = past ++ t :: rest →
    ∀ p now b, t.before.socketUse t.action = some (p, now) → begunAt p past = some b →
      now < b + idleTimeout

/-- Nothing is forwarded at a later time than the start of a goroutine. -/
def NothingLater (steps : List RelayStep) : Prop :=
  ∀ past t rest, steps = past ++ t :: rest → ∀ p now b, forwardedAt t = some now →
    begunAt p past = some b → now ≤ b

/-- By the clock, a goroutine does not start before what was forwarded. -/
theorem lastForwarded_le_begins (hclock : Clock start ((past ++ t :: rest).map (·.action)))
    {p : Party} {b : Int} (hb : begins p t.action = some b) : lastForwarded start past ≤ b := by
  have htime : t.action.time = some b := by
    cases haction : t.action <;> simp_all [begins, RelayAction.time]
  rw [Clock, List.map_append, List.filterMap_append, ← List.cons_append,
    List.pairwise_append] at hclock
  exact hclock.2.2 _ (lastForwarded_mem start past) b (by simp [htime])

/-- Nothing is forwarded at a later time than a goroutine starts: before it does by the
    clock, and afterwards by hypothesis. -/
theorem lastForwarded_le (hclock : Clock start ((past ++ rest).map (·.action)))
    (h : NothingLater (past ++ rest)) {p : Party} {b : Int} (hb : begunAt p past = some b) :
    lastForwarded start past ≤ b := by
  induction past using List.reverseRecOn generalizing rest with
  | nil => simp [begunAt] at hb
  | append_singleton past t ih =>
    rw [List.append_assoc, List.singleton_append] at hclock h
    rw [begunAt_concat] at hb
    rw [lastForwarded_concat]
    cases hbegun : begunAt p past with
    | some b' =>
      obtain rfl : b' = b := by simpa [hbegun] using hb
      cases hfwd : forwardedAt t with
      | none => exact ih hclock h hbegun
      | some now => exact h past t rest rfl p now b' hfwd hbegun
    | none =>
      -- the goroutine starts with this step, which forwards nothing
      have hbegins : begins p t.action = some b := by simpa [hbegun] using hb
      have hfwd : forwardedAt t = none := by
        cases haction : t.action <;> simp_all [begins, forwardedAt]
      rw [hfwd]
      exact lastForwarded_le_begins hclock hbegins

section Deadlines

variable (hidle : 0 < idleTimeout) (hclient : client.sock.deadline = none)
  (hbackend : backend.sock.deadline = none)

include hidle hclient hbackend

/-- What is known wherever the steps of a relay are cut. -/
theorem deadlineFixed_cut (hcut : relaySteps idleTimeout client backend run = past ++ t :: rest) :
    DeadlineFixed idleTimeout t.before past ∧ DeadlineFixed idleTimeout t.after (past ++ [t]) ∧
      t.after = t.before.step idleTimeout t.action := by
  obtain ⟨before, action, after⟩ := t
  obtain ⟨hfixed, -, hafter⟩ := Transition.trace_cut (step idleTimeout) (fun _ _ => True)
    (DeadlineFixed idleTimeout) (fun s past a _ => deadlineFixed_step hidle s past a)
    (startRelay client backend) [] (deadlineFixed_start hclient hbackend) run
    (List.along_trivial ..) past _ rest hcut
  obtain rfl : after = before.step idleTimeout action := hafter
  exact ⟨hfixed, deadlineFixed_step hidle before past action hfixed, rfl⟩

/-- A copy ends because of a deadline `idleTimeout` after the start of the goroutine that
    writes to the connection, or later. -/
theorem timesOut_cut (hcut : relaySteps idleTimeout client backend run = past ++ t :: rest) :
    timesOut t ↔ ∃ p now b, t.before.socketUse t.action = some (p, now) ∧
      begunAt p past = some b ∧ b + idleTimeout ≤ now := by
  obtain ⟨hfixed, -, hafter⟩ := deadlineFixed_cut hidle hclient hbackend hcut
  obtain ⟨before, action, after⟩ := t
  obtain rfl : after = before.step idleTimeout action := hafter
  rw [timesOut_iff, meetsDeadline, Option.any_eq_true]
  constructor
  · rintro ⟨⟨p, now⟩, huse, hexp⟩
    simp only [Sock.expired, (hfixed p).1, Option.any_eq_true, Option.map_eq_some_iff] at hexp
    obtain ⟨d, ⟨b, hb, rfl⟩, hle⟩ := hexp
    exact ⟨p, now, b, huse, hb, by simpa using hle⟩
  · rintro ⟨p, now, b, huse, hb, hle⟩
    exact ⟨(p, now), huse, by simp [Sock.expired, (hfixed p).1, hb, hle]⟩

theorem neverTimesOut_iff :
    NeverTimesOut (relaySteps idleTimeout client backend run) ↔
      UsedInTime idleTimeout (relaySteps idleTimeout client backend run) := by
  constructor
  · intro h past t rest hcut p now b huse hb
    by_contra hlate
    refine h t (by simp [hcut]) ((timesOut_cut hidle hclient hbackend hcut).mpr ?_)
    exact ⟨p, now, b, huse, hb, by omega⟩
  · intro h t ht
    obtain ⟨past, rest, hcut⟩ := List.append_of_mem ht
    rw [timesOut_cut hidle hclient hbackend hcut]
    rintro ⟨p, now, b, huse, hb, hle⟩
    have := h past t rest hcut p now b huse hb
    omega

theorem deadlinesFollow_iff (hclock : Clock start run) :
    DeadlinesFollow idleTimeout start (relaySteps idleTimeout client backend run) ↔
      NothingLater (relaySteps idleTimeout client backend run) := by
  constructor
  · intro h past t rest hcut p now b hfwd hb
    obtain ⟨-, hfixed, -⟩ := deadlineFixed_cut hidle hclient hbackend hcut
    have hdeadline := h past t rest hcut p (b + idleTimeout)
      (by simp [(hfixed p).1, begunAt_concat, hb])
    rw [lastForwarded_concat, hfwd, Option.getD_some] at hdeadline
    omega
  · intro h past t rest hcut p d hd
    obtain ⟨-, hfixed, -⟩ := deadlineFixed_cut hidle hclient hbackend hcut
    rw [(hfixed p).1, Option.map_eq_some_iff] at hd
    obtain ⟨b, hb, rfl⟩ := hd
    have hcut' : relaySteps idleTimeout client backend run = (past ++ [t]) ++ rest := by
      rw [hcut, List.append_assoc, List.singleton_append]
    have hrun : ((past ++ [t]) ++ rest).map (·.action) = run := by
      rw [← hcut']
      exact Transition.map_action_trace ..
    have hle := lastForwarded_le (hrun ▸ hclock) (hcut' ▸ h) hb
    omega

end Deadlines

/-- For every relay, every behaviour of its peers and every timing: no deadline is met
    exactly when every connection is used less than `idleTimeout` after its goroutine
    started, whatever was forwarded meanwhile; and the deadlines keep up with what is
    forwarded exactly when nothing is forwarded after the goroutines started. -/
theorem idle_timeout_iff (idleTimeout : Duration) (hidle : 0 < idleTimeout) (start : Int)
    (client backend : NetConn) (hclient : client.sock.deadline = none)
    (hbackend : backend.sock.deadline = none) (run : List RelayAction) (hclock : Clock start run) :
    (NeverTimesOut (relaySteps idleTimeout client backend run) ↔
      UsedInTime idleTimeout (relaySteps idleTimeout client backend run)) ∧
    (DeadlinesFollow idleTimeout start (relaySteps idleTimeout client backend run) ↔
      NothingLater (relaySteps idleTimeout client backend run)) :=
  ⟨neverTimesOut_iff hidle hclient hbackend, deadlinesFollow_iff hidle hclient hbackend hclock⟩

theorem begunAt_mem {p : Party} {b : Int} (hb : begunAt p past = some b) :
    ∃ t ∈ past, t.action.time = some b := by
  obtain ⟨t, ht, hbegins⟩ := List.exists_of_findSome?_eq_some hb
  refine ⟨t, ht, ?_⟩
  cases haction : t.action <;> simp_all [begins, RelayAction.time]

theorem socketUse_time {s : RelayState} {a : RelayAction} {p : Party} {now : Int}
    (h : s.socketUse a = some (p, now)) : a.time = some now := by
  cases a with
  | read dst event time =>
    simp only [socketUse, Option.ite_none_right_eq_some, Option.some.injEq, Prod.mk.injEq] at h
    rw [RelayAction.time, h.2.2]
  | write dst k time =>
    simp only [socketUse] at h
    split at h
    · rw [RelayAction.time, (Prod.mk.inj (Option.some.inj h)).2]
    · cases h
  | _ => cases h

/-- A relay that lasts less than `idleTimeout` does not meet a deadline. -/
theorem usedInTime_of_short (hclock : Clock start run)
    (hshort : ∀ a ∈ run, ∀ now, a.time = some now → now < start + idleTimeout) :
    UsedInTime idleTimeout (relaySteps idleTimeout client backend run) := by
  intro past t rest hcut p now b huse hb
  have hrun : run = (past ++ t :: rest).map (·.action) := by
    rw [← hcut]
    exact (Transition.map_action_trace ..).symm
  obtain ⟨u, hu, hub⟩ := begunAt_mem hb
  have hstart : start ≤ b := by
    refine (List.pairwise_cons.mp hclock).1 b (List.mem_filterMap.mpr ⟨u.action, ?_, hub⟩)
    rw [hrun]
    exact List.mem_map_of_mem (List.mem_append_left _ hu)
  have hnow := hshort t.action (by rw [hrun]; simp) now (socketUse_time huse)
  omega

/-- A new connection to a peer that sends these bytes. -/
def freshConn (inbound : List UInt8) : NetConn :=
  .tcp { inbound, deadline := none, written := [], writeClosed := false }

/-- A byte from the client and one from the backend within five minutes. -/
def shortRelay : List RelayAction :=
  [.begin .backend 0, .begin .client 0, .read .backend (.data 1) 200, .write .backend 1 200,
    .read .client (.data 1) 250, .write .client 1 250, .read .backend .eof 299, .finish .backend]

theorem short_relay_ends_by_eof :
    NeverTimesOut (relaySteps 300 (freshConn [1]) (freshConn [2]) shortRelay) := by
  have hclock : Clock 0 shortRelay := by unfold Clock; decide
  refine (idle_timeout_iff 300 (by decide) 0 (freshConn [1]) (freshConn [2]) rfl rfl shortRelay
    hclock).1.mpr (usedInTime_of_short hclock ?_)
  simp [shortRelay, RelayAction.time]

/-- Each use of a connection comes less than `idleTimeout` after the last forwarded bytes,
    or after the start of the relay. -/
def busy (idleTimeout : Duration) : Int → List RelayStep → Bool
  | _, [] => true
  | last, t :: steps =>
    ((t.before.socketUse t.action).all fun (_, now) => now < last + idleTimeout) &&
      busy idleTimeout ((forwardedAt t).getD last) steps

/-- The steps of a relay, cut at one of them. -/
theorem cut_at {steps : List RelayStep} (i : Nat) (h : i < steps.length) :
    steps = steps.take i ++ steps[i] :: steps.drop (i + 1) := by
  rw [← List.drop_eq_getElem_cons h, List.take_append_drop]

/-- The client sends a byte after 200 seconds and another one after 400. -/
def twoBytesApart : List RelayAction :=
  [.begin .backend 0, .begin .client 0, .read .backend (.data 1) 200, .write .backend 1 200,
    .read .backend (.data 1) 400, .finish .backend]

/-- With an idle timeout of 300 seconds the second byte is not forwarded and the direction
    ends with a timeout, though the relay is never idle for that long. -/
theorem busy_relay_times_out :
    ∃ steps, steps = relaySteps 300 (freshConn [1, 2]) (freshConn []) twoBytesApart ∧
      Clock 0 twoBytesApart ∧ busy 300 0 steps = true ∧
      ¬ NeverTimesOut steps ∧ ¬ DeadlinesFollow 300 0 steps ∧
      ∃ s, s = twoBytesApart.foldl (step 300) (startRelay (freshConn [1, 2]) (freshConn [])) ∧
        s.phase .backend = .finished .timeout ∧ (s.conns .backend).sock.written = [1] := by
  refine ⟨_, rfl, by unfold Clock; decide, by decide +kernel, ?_, ?_, _, rfl, by decide +kernel,
    by decide +kernel⟩
  · intro h
    exact h _ (List.getElem_mem (n := 4) (by decide))
      ⟨.backend, by decide +kernel, by decide +kernel⟩
  · intro h
    have hfollow := h _ _ _ (cut_at 3 (by decide)) .client 300 (by decide +kernel)
    revert hfollow
    decide +kernel

end RelayState

end HootLb.L4
