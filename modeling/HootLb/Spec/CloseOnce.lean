import HootLb.ForStd.Trace
import HootLb.Native.StopFunctions

/-!
# Who closes which channel

The goroutine of `ListenSIGUSR2` leaves its loop only when it receives from `done`, that
is when the stop function has closed it, and then closes it itself. So its return is
always a second close.

A call of `Limiter.Stop` closes `stop` if it finds `done` open, and `done` is closed by
the loop some time after `stop`. Calls that come one after the other are safe: the first
one returns when `done` is closed. Two that look at `done` before that both go on to
close `stop`.

## Key results

- `SignalListener.Inv`: how often `done` was closed, and by whom
- `StopLimiter.Inv`, `StopLimiter.OneAtATime`: the same for the limiter, and for calls
  that do not overlap
- `stop_closes_once_iff`: which runs close no channel twice
-/

namespace HootLb.Restart

/-! ## The signal handler -/

namespace SignalListener

/-- `done` was closed by the stop function and by the goroutine, which goes second. -/
structure Inv (s : SignalListener) : Prop where
  closes : s.done.closes =
    (if s.stopper = .finished then 1 else 0) + (if s.goroutine = .exited then 1 else 0)
  stopped : s.goroutine = .returning ∨ s.goroutine = .exited → s.stopper = .finished

theorem inv_listen : listenSIGUSR2.Inv := ⟨rfl, fun h => by rcases h with h | h <;> cases h⟩

theorem Inv.step {s s' : SignalListener} {a : SignalAction} (h : s.Inv)
    (hstep : s.step a = some s') : s'.Inv := by
  obtain ⟨hcloses, hstopped⟩ := h
  unfold SignalListener.step at hstep
  obtain ⟨-, hstep⟩ := Option.ite_none_left_eq_some.mp hstep
  cases a with
  | deliver =>
    cases hstep
    exact ⟨hcloses, hstopped⟩
  | receiveDone =>
    obtain ⟨⟨hgoroutine, hclosed⟩, hnext⟩ := Option.ite_none_right_eq_some.mp hstep
    cases hnext
    -- the goroutine has not closed it, so the stop function has
    have hfinished : s.stopper = .finished := by
      by_contra hne
      rw [DoneChan.isClosed_iff, hcloses, if_neg hne, hgoroutine] at hclosed
      exact absurd hclosed (by decide)
    refine ⟨?_, fun _ => hfinished⟩
    rw [hcloses, hgoroutine]
    rfl
  | receiveSignal =>
    obtain ⟨⟨hgoroutine, -⟩, hnext⟩ := Option.ite_none_right_eq_some.mp hstep
    cases hnext
    rw [hgoroutine] at hcloses
    exact ⟨hcloses, fun h => by rcases h with h | h <;> cases h⟩
  | fnReturns =>
    obtain ⟨hgoroutine, hnext⟩ := Option.ite_none_right_eq_some.mp hstep
    cases hnext
    rw [hgoroutine] at hcloses
    exact ⟨hcloses, fun h => by rcases h with h | h <;> cases h⟩
  | closeDeferred =>
    obtain ⟨hgoroutine, hnext⟩ := Option.ite_none_right_eq_some.mp hstep
    cases hnext
    have hfinished := hstopped (.inl hgoroutine)
    refine ⟨?_, fun _ => hfinished⟩
    rw [DoneChan.closes_close, hcloses, hgoroutine]
    rfl
  | unregister =>
    obtain ⟨hstopper, hnext⟩ := Option.ite_none_right_eq_some.mp hstep
    cases hnext
    rw [hstopper] at hcloses
    refine ⟨hcloses, fun hleaves => ?_⟩
    exact absurd (hstopper.symm.trans (hstopped hleaves)) (by decide)
  | closeDone =>
    obtain ⟨hstopper, hnext⟩ := Option.ite_none_right_eq_some.mp hstep
    cases hnext
    refine ⟨?_, fun _ => rfl⟩
    rw [DoneChan.closes_close, hcloses, hstopper, Nat.add_right_comm]
    rfl

theorem inv_of_run {run : List SignalAction} {s : SignalListener}
    (hrun : run.foldlM SignalListener.step listenSIGUSR2 = some s) : s.Inv :=
  List.foldlM_invariant (fun _ _ _ h hstep => h.step hstep) run _ s inv_listen hrun

/-- The return of the goroutine is the second close. -/
theorem Inv.closes_le_one_iff {s : SignalListener} (h : s.Inv) :
    s.done.closes ≤ 1 ↔ s.goroutine ≠ .exited := by
  rw [h.closes]
  constructor
  · intro hle hexited
    rw [if_pos hexited, if_pos (h.stopped (.inr hexited))] at hle
    exact absurd hle (by decide)
  · intro hne
    rw [if_neg hne]
    split <;> decide

end SignalListener

/-- The steps of the goroutine. -/
def SignalAction.ofGoroutine : SignalAction → Bool
  | receiveDone | fnReturns | closeDeferred => true
  | _ => false

/-- Once the stop function has returned, the goroutine can close `done` again without
    anything else happening. -/
theorem SignalListener.Inv.canReach_second_close {s : SignalListener} (h : s.Inv)
    (hfinished : s.stopper = .finished) (hrunning : s.goroutine ≠ .exited) :
    CanReach SignalListener.step SignalAction.ofGoroutine (fun s' => 1 < s'.done.closes) s := by
  have hone : s.done.closes = 1 := by rw [h.closes, if_pos hfinished, if_neg hrunning]
  obtain ⟨registered, pending, ⟨closes⟩, goroutine, stopper⟩ := s
  obtain rfl : closes = 1 := hone
  cases goroutine with
  | selecting => exact ⟨[.receiveDone, .closeDeferred], _, by decide, rfl, Nat.one_lt_two⟩
  | calling =>
    exact ⟨[.fnReturns, .receiveDone, .closeDeferred], _, by decide, rfl, Nat.one_lt_two⟩
  | returning => exact ⟨[.closeDeferred], _, by decide, rfl, Nat.one_lt_two⟩
  | exited => exact absurd rfl hrunning

end HootLb.Restart

namespace HootLb.Ratelimit

/-! ## The limiter -/

namespace StopCall

/-- The call has closed `stop`. -/
def hasClosed : StopCall → Bool
  | waiting | returned => true
  | _ => false

/-- The call went past its look at `done`, to close `stop`. -/
def goesOn : StopCall → Bool
  | foundOpen | waiting | returned => true
  | _ => false

def isFinished : StopCall → Bool
  | returned | skipped => true
  | _ => false

theorem goesOn_eq (c : StopCall) : c.goesOn = (c.hasClosed || c == foundOpen) := by
  cases c <;> rfl

end StopCall

namespace StopLimiter

/-- The calls that found `done` open. -/
def goingOn (s : StopLimiter) : Nat := s.calls.countP StopCall.goesOn

/-- Each channel was closed by those who are past their close of it: `stop` by calls, `done`
    by the loop, or at once if there is no loop. -/
structure Inv (idleTTL : Duration) (s : StopLimiter) : Prop where
  stop : s.stop.Accounts StopCall.hasClosed s.calls
  done : s.done.closes = if s.loop = .absent ∨ s.loop = .exited then 1 else 0
  alive : s.dead = false → s.stop.closes ≤ 1
  absent : idleTTL ≤ 0 → s.loop = .absent
  unused : s.loop = .absent → s.goingOn = 0
  returned : .returned ∈ s.calls → s.done.isClosed

theorem inv_new (idleTTL : Duration) : (newStopLimiter idleTTL).Inv idleTTL := by
  by_cases h : idleTTL > 0
  · exact ⟨.start _, by simp [newStopLimiter, h], fun _ => Nat.zero_le 1,
      fun hle => absurd h (not_lt.mpr hle), fun _ => rfl, (by cases ·)⟩
  · exact ⟨.start _, by simp [newStopLimiter, h], fun _ => Nat.zero_le 1,
      fun _ => by simp [newStopLimiter, h], fun _ => rfl, (by cases ·)⟩

section

variable {idleTTL : Duration} {s s' : StopLimiter}

/-! ### What a step keeps -/

/-- The loop moves on, short of its end. -/
theorem Inv.loop (h : s.Inv idleTTL) {loop : EvictPhase} (hfrom : s.loop ≠ .absent)
    (hexit : s.loop ≠ .exited) (hto : loop ≠ .absent) (hexit' : loop ≠ .exited) :
    { s with loop }.Inv idleTTL := by
  refine ⟨h.stop, ?_, h.alive, fun hle => absurd (h.absent hle) hfrom, fun heq => absurd heq hto,
    h.returned⟩
  rw [h.done, if_neg (not_or.mpr ⟨hfrom, hexit⟩)]
  exact (if_neg (not_or.mpr ⟨hto, hexit'⟩)).symm

/-- The loop ends. -/
theorem Inv.closeDone (h : s.Inv idleTTL) {panics : Bool} (hloop : s.loop = .leaving panics)
    (halive : s.dead = false) (dead : Bool) :
    { s with loop := .exited, done := s.done.close, dead }.Inv idleTTL := by
  have hopen : s.done.closes = 0 := by
    rw [h.done, hloop]
    rfl
  refine ⟨h.stop, ?_, fun _ => h.alive halive, ?_, (by cases ·), fun _ => rfl⟩
  · rw [DoneChan.closes_close, hopen]
    rfl
  · intro hle
    exact absurd (hloop.symm.trans (h.absent hle)) (by simp)

/-- A call moves on without closing `stop`. It finds `done` open only if the loop is there,
    and returns only if `done` is closed. -/
theorem Inv.call (h : s.Inv idleTTL) {k : Nat} {c c' : StopCall} (hk : s.calls[k]? = some c)
    (hsame : c'.hasClosed = c.hasClosed) (hloop : s.loop = .absent → c'.goesOn = c.goesOn)
    (hreturned : c' = .returned → s.done.isClosed) :
    { s with calls := s.calls.set k c' }.Inv idleTTL := by
  refine ⟨h.stop.move hk hsame, h.done, h.alive, h.absent, ?_, ?_⟩
  · intro habsent
    have hcount := List.countP_set_add StopCall.goesOn c' hk
    rw [hloop habsent, Nat.add_right_cancel_iff] at hcount
    exact hcount.trans (h.unused habsent)
  · intro hmem
    rcases List.mem_or_eq_of_mem_set hmem with hmem | heq
    · exact h.returned hmem
    · exact hreturned heq.symm

/-- A call closes `stop`. -/
theorem Inv.closeStop (h : s.Inv idleTTL) {k : Nat} (hk : s.calls[k]? = some .foundOpen) :
    { s with calls := s.calls.set k .waiting, stop := s.stop.close, dead := s.stop.isClosed }.Inv
      idleTTL := by
  refine ⟨h.stop.closes hk rfl rfl, h.done, ?_, h.absent, ?_, ?_⟩
  · intro hopen
    rw [DoneChan.closes_close, (DoneChan.isClosed_eq_false_iff _).mp hopen]
  · intro habsent
    -- without a loop there is no such call
    have hmem := List.mem_of_getElem? hk
    exact absurd (List.countP_eq_zero.mp (h.unused habsent) _ hmem) (by decide)
  · intro hmem
    rcases List.mem_or_eq_of_mem_set hmem with hmem | heq
    · exact h.returned hmem
    · cases heq

theorem Inv.step {a : StopAction} (h : s.Inv idleTTL) (hstep : s.step a = some s') :
    s'.Inv idleTTL := by
  unfold StopLimiter.step at hstep
  obtain ⟨hdead, hstep⟩ := Option.ite_none_left_eq_some.mp hstep
  cases a with
  | newTicker =>
    obtain ⟨hloop, hnext⟩ := Option.ite_none_right_eq_some.mp hstep
    cases hnext
    refine h.loop (by rw [hloop]; decide) (by rw [hloop]; decide) ?_ ?_ <;> split <;> decide
  | tick | evicted =>
    obtain ⟨hloop, hnext⟩ := Option.ite_none_right_eq_some.mp hstep
    cases hnext
    exact h.loop (by rw [hloop]; decide) (by rw [hloop]; decide) (by decide) (by decide)
  | receiveStop =>
    obtain ⟨⟨hloop, -⟩, hnext⟩ := Option.ite_none_right_eq_some.mp hstep
    cases hnext
    exact h.loop (by rw [hloop]; decide) (by rw [hloop]; decide) (by decide) (by decide)
  | closeDone =>
    dsimp only at hstep
    split at hstep
    · rename_i panics hloop
      cases hstep
      exact h.closeDone hloop (by simpa using hdead) _
    · cases hstep
  | call =>
    cases hstep
    refine ⟨h.stop.join rfl, h.done, h.alive, h.absent, ?_, ?_⟩
    · intro habsent
      exact (List.countP_append ..).trans (congrArg (· + 0) (h.unused habsent))
    · intro hmem
      exact h.returned (by simpa using hmem)
  | check k =>
    obtain ⟨hk, hnext⟩ := Option.ite_none_right_eq_some.mp hstep
    cases hnext
    refine h.call hk (by split <;> rfl) ?_ (by split <;> exact fun heq => by cases heq)
    intro habsent
    have hclosed : s.done.isClosed := by
      rw [DoneChan.isClosed_iff, h.done, if_pos (.inl habsent)]
      decide
    rw [if_pos hclosed]
    rfl
  | closeStop k =>
    obtain ⟨hk, hnext⟩ := Option.ite_none_right_eq_some.mp hstep
    cases hnext
    exact h.closeStop hk
  | await k =>
    obtain ⟨⟨hk, hclosed⟩, hnext⟩ := Option.ite_none_right_eq_some.mp hstep
    cases hnext
    exact h.call hk rfl (fun _ => rfl) fun _ => hclosed

theorem inv_of_run {run : List StopAction}
    (hrun : run.foldlM StopLimiter.step (newStopLimiter idleTTL) = some s) : s.Inv idleTTL :=
  List.foldlM_invariant (fun _ _ _ h hstep => h.step hstep) run _ s (inv_new idleTTL) hrun

theorem Inv.done_closes_le_one (h : s.Inv idleTTL) : s.done.closes ≤ 1 := by
  rw [h.done]
  split <;> decide

/-- Only calls that found `done` open close `stop`. -/
theorem Inv.stop_closes_le (h : s.Inv idleTTL) : s.stop.closes ≤ s.goingOn := by
  rw [h.stop]
  refine List.countP_mono_left fun c _ hc => ?_
  rw [StopCall.goesOn_eq, hc, Bool.true_or]

/-! ### Calls that overlap -/

/-- As long as not all of the calls that found `done` open have closed `stop`, one of them
    can. -/
theorem Inv.exists_closeStop (h : s.Inv idleTTL) (halive : s.dead = false)
    (hlt : s.stop.closes < s.goingOn) :
    ∃ k s', s.step (.closeStop k) = some s' ∧ s'.stop.closes = s.stop.closes + 1 ∧
      s'.dead = s.stop.isClosed := by
  have hfound : .foundOpen ∈ s.calls := by
    by_contra hnone
    refine absurd (h.stop.trans (List.countP_congr fun c hc => ?_)) hlt.ne
    have hne : (c == .foundOpen) = false := by
      rw [beq_eq_false_iff_ne]
      rintro rfl
      exact hnone hc
    rw [StopCall.goesOn_eq, hne, Bool.or_false]
  obtain ⟨k, hk⟩ := List.mem_iff_getElem?.mp hfound
  refine ⟨k, { s with
    calls := s.calls.set k .waiting, stop := s.stop.close, dead := s.stop.isClosed }, ?_, rfl, rfl⟩
  unfold StopLimiter.step
  rw [if_neg (by simp [halive])]
  exact if_pos hk

end

end StopLimiter

/-- The close of `stop` in a call. -/
def StopAction.isCloseStop : StopAction → Bool
  | closeStop _ => true
  | _ => false

namespace StopLimiter

variable {idleTTL : Duration} {s s' : StopLimiter}

theorem goingOn_closeStop {a : StopAction} (ha : a.isCloseStop) (hstep : s.step a = some s') :
    s'.goingOn = s.goingOn := by
  unfold StopLimiter.step at hstep
  obtain ⟨-, hstep⟩ := Option.ite_none_left_eq_some.mp hstep
  cases a with
  | closeStop k =>
    obtain ⟨hk, hnext⟩ := Option.ite_none_right_eq_some.mp hstep
    cases hnext
    have hcount := List.countP_set_add StopCall.goesOn .waiting hk
    exact Nat.add_right_cancel hcount
  | _ => cases ha

/-- Calls that have found `done` open close `stop` twice exactly if there are two of them. -/
theorem Inv.canReach_second_close_iff (h : s.Inv idleTTL) (halive : s.dead = false) :
    CanReach StopLimiter.step StopAction.isCloseStop (fun s' => 1 < s'.stop.closes) s ↔
      2 ≤ s.goingOn := by
  constructor
  · intro hreach
    obtain ⟨s', ⟨hinv, hsame⟩, htwice⟩ :=
      hreach.of_invariant (I := fun s' => s'.Inv idleTTL ∧ s'.goingOn = s.goingOn)
        (fun _ _ _ hI hkind hstep =>
          ⟨hI.1.step hstep, (goingOn_closeStop hkind hstep).trans hI.2⟩) ⟨h, rfl⟩
    exact hsame ▸ htwice.trans_le hinv.stop_closes_le
  · intro htwo
    have hle := h.alive halive
    obtain ⟨k, s', hstep, hcloses, hdead⟩ := h.exists_closeStop halive (by omega)
    refine .next rfl hstep ?_
    by_cases hopen : s.stop.closes = 0
    · -- this was the first close, and the process goes on
      have halive' := hdead.trans ((DoneChan.isClosed_eq_false_iff _).mpr hopen)
      have hgoing := goingOn_closeStop rfl hstep
      obtain ⟨k', s'', hstep', hcloses', -⟩ :=
        (h.step hstep).exists_closeStop halive' (by omega)
      exact .next rfl hstep' (.here (by omega))
    · exact .here (by omega)

/-! ### Calls one after the other -/

/-- A call of `Stop` begins when those before it have returned. -/
def OneAtATime (idleTTL : Duration) (run : List StopAction) : Prop :=
  ∀ n < run.length, run[n]? = some .call →
    ∀ t ∈ (run.take n).foldlM StopLimiter.step (newStopLimiter idleTTL),
      ∀ c ∈ t.calls, c.isFinished

instance (idleTTL : Duration) (run : List StopAction) : Decidable (OneAtATime idleTTL run) :=
  inferInstanceAs (Decidable (∀ n < run.length, run[n]? = some .call →
    ∀ t ∈ (run.take n).foldlM StopLimiter.step (newStopLimiter idleTTL),
      ∀ c ∈ t.calls, c.isFinished))

/-- All but the last call have returned, and at most one call has found `done` open. -/
structure Serial (s : StopLimiter) : Prop where
  earlier : ∀ i c, s.calls[i]? = some c → i + 1 < s.calls.length → c.isFinished
  one : s.goingOn ≤ 1

theorem serial_new (idleTTL : Duration) : (newStopLimiter idleTTL).Serial where
  earlier i c hi := by cases hi
  one := Nat.zero_le 1

/-- What a step does to the calls. -/
theorem step_calls {a : StopAction} (hstep : s.step a = some s') :
    s'.calls = s.calls ∨ (a = .call ∧ s'.calls = s.calls ++ [.entered]) ∨
      ∃ k c c', s.calls[k]? = some c ∧ c.isFinished = false ∧ s'.calls = s.calls.set k c' ∧
        (c'.goesOn = c.goesOn ∨ c = .entered ∧ s.done.isClosed = false) := by
  unfold StopLimiter.step at hstep
  obtain ⟨-, hstep⟩ := Option.ite_none_left_eq_some.mp hstep
  cases a with
  | newTicker | tick | evicted | receiveStop =>
    obtain ⟨-, hnext⟩ := Option.ite_none_right_eq_some.mp hstep
    cases hnext
    exact .inl rfl
  | closeDone =>
    dsimp only at hstep
    split at hstep
    · cases hstep
      exact .inl rfl
    · cases hstep
  | call =>
    cases hstep
    exact .inr (.inl ⟨rfl, rfl⟩)
  | check k =>
    obtain ⟨hk, hnext⟩ := Option.ite_none_right_eq_some.mp hstep
    cases hnext
    refine .inr (.inr ⟨k, _, _, hk, rfl, rfl, ?_⟩)
    cases hclosed : s.done.isClosed with
    | true => exact .inl rfl
    | false => exact .inr ⟨rfl, rfl⟩
  | closeStop k =>
    obtain ⟨hk, hnext⟩ := Option.ite_none_right_eq_some.mp hstep
    cases hnext
    exact .inr (.inr ⟨k, _, _, hk, rfl, rfl, .inl rfl⟩)
  | await k =>
    obtain ⟨⟨hk, -⟩, hnext⟩ := Option.ite_none_right_eq_some.mp hstep
    cases hnext
    exact .inr (.inr ⟨k, _, _, hk, rfl, rfl, .inl rfl⟩)

/-- A call that is about to look at an open `done` is the only one to have found it open. -/
theorem Serial.goingOn_eq_zero (hs : s.Serial) (h : s.Inv idleTTL) {k : Nat}
    (hk : s.calls[k]? = some .entered) (hopen : s.done.isClosed = false) : s.goingOn = 0 := by
  have hlast : ¬ k + 1 < s.calls.length := fun hlt => absurd (hs.earlier k _ hk hlt) (by decide)
  refine List.countP_eq_zero.mpr fun c hc => ?_
  obtain ⟨i, hi⟩ := List.mem_iff_getElem?.mp hc
  have hilt := (List.getElem?_eq_some_iff.mp hi).1
  have hklt := (List.getElem?_eq_some_iff.mp hk).1
  by_cases hlt : i + 1 < s.calls.length
  · -- an earlier call has returned, but not after a wait for `done`
    have hfinished := hs.earlier i c hi hlt
    cases c with
    | returned => exact absurd (h.returned hc) (by simp [hopen])
    | skipped => decide
    | entered | foundOpen | waiting => cases hfinished
  · obtain rfl : i = k := by omega
    cases hi.symm.trans hk
    decide

theorem Serial.step {a : StopAction} (hs : s.Serial) (h : s.Inv idleTTL)
    (hcall : a = .call → ∀ c ∈ s.calls, c.isFinished) (hstep : s.step a = some s') :
    s'.Serial := by
  obtain heq | ⟨ha, heq⟩ | ⟨k, c, c', hk, hunfinished, heq, hgoes⟩ := step_calls hstep
  · exact ⟨by rw [heq]; exact hs.earlier, by rw [goingOn, heq]; exact hs.one⟩
  · refine ⟨?_, ?_⟩
    · intro i c hi hlt
      rw [heq, List.length_append, List.length_singleton] at hlt
      rw [heq, List.getElem?_append_left (by omega)] at hi
      exact hcall ha c (List.mem_of_getElem? hi)
    · rw [goingOn, heq, List.countP_append]
      exact hs.one
  · refine ⟨?_, ?_⟩
    · intro i d hi hlt
      rw [heq, List.length_set] at hlt
      rw [heq] at hi
      have hne : k ≠ i := by
        rintro rfl
        exact absurd (hs.earlier k c hk hlt) (by simp [hunfinished])
      rw [List.getElem?_set_ne hne] at hi
      exact hs.earlier i d hi hlt
    · have hcount := List.countP_set_add StopCall.goesOn c' hk
      rw [goingOn, heq]
      rcases hgoes with hsame | ⟨rfl, hopen⟩
      · rw [hsame, Nat.add_right_cancel_iff] at hcount
        exact hcount.trans_le hs.one
      · have hzero := hs.goingOn_eq_zero h hk hopen
        unfold goingOn at hzero
        rw [hzero] at hcount
        split at hcount <;> split at hcount <;> omega

theorem serial_of_run {run : List StopAction} (hone : OneAtATime idleTTL run)
    (hrun : run.foldlM StopLimiter.step (newStopLimiter idleTTL) = some s) : s.Serial := by
  have hboth : s.Inv idleTTL ∧ s.Serial := by
    refine List.foldlM_invariant_of_cuts
      (I := fun t => t.Inv idleTTL ∧ t.Serial)
      (P := fun t a => a = .call → ∀ c ∈ t.calls, c.isFinished)
      (fun _ _ _ hI hcall hstep => ⟨hI.1.step hstep, hI.2.step hI.1 hcall hstep⟩) run _ s
      ⟨inv_new idleTTL, serial_new idleTTL⟩ ?_ hrun
    rintro past a rest t rfl hpast rfl
    exact hone past.length (by simp) (by simp) t (by rwa [List.take_left])
  exact hboth.2

end StopLimiter

end HootLb.Ratelimit

namespace HootLb

open Restart Ratelimit

/-- Which runs close no channel twice. The signal handler closes `done` a second time when
    its goroutine returns, which it can do as soon as the stop function has. The limiter
    closes `done` once, and `stop` once if the calls of `Stop` come one after the other or
    there is no loop to stop. Two calls that find `done` open close `stop` twice. -/
theorem stop_closes_once_iff (signals : List SignalAction) (idleTTL : Duration)
    (stops : List StopAction) :
    (∀ s, signals.foldlM SignalListener.step listenSIGUSR2 = some s →
      (s.done.closes ≤ 1 ↔ s.goroutine ≠ .exited) ∧
      (s.stopper = .finished → s.goroutine ≠ .exited →
        CanReach SignalListener.step SignalAction.ofGoroutine
          (fun s' => 1 < s'.done.closes) s)) ∧
    (∀ s, stops.foldlM StopLimiter.step (newStopLimiter idleTTL) = some s →
      s.done.closes ≤ 1 ∧ (idleTTL ≤ 0 → s.stop.closes = 0) ∧
      (StopLimiter.OneAtATime idleTTL stops → s.stop.closes ≤ 1) ∧
      (s.goingOn ≤ 1 → s.stop.closes ≤ 1) ∧
      (s.dead = false →
        (CanReach StopLimiter.step StopAction.isCloseStop (fun s' => 1 < s'.stop.closes) s ↔
          2 ≤ s.goingOn))) := by
  refine ⟨?_, ?_⟩
  · intro s hrun
    have hinv := SignalListener.inv_of_run hrun
    exact ⟨hinv.closes_le_one_iff, hinv.canReach_second_close⟩
  · intro s hrun
    have hinv := StopLimiter.inv_of_run hrun
    have hle := hinv.stop_closes_le
    refine ⟨hinv.done_closes_le_one, ?_, ?_, hle.trans, hinv.canReach_second_close_iff⟩
    · intro hnever
      rw [hinv.unused (hinv.absent hnever)] at hle
      exact Nat.le_zero.mp hle
    · intro hone
      exact hle.trans (StopLimiter.serial_of_run hone hrun).one

/-- Two calls of `Stop`, the second after the first has returned. -/
def stopTwice : List StopAction :=
  [.newTicker, .call, .check 0, .closeStop 0, .receiveStop, .closeDone, .await 0, .call, .check 1]

theorem stop_closes_once_iff_stopTwice :
    ∃ s, List.foldlM StopLimiter.step (newStopLimiter 2) stopTwice = some s ∧
      s.calls = [.returned, .skipped] ∧ s.stop.closes ≤ 1 :=
  ⟨_, rfl, rfl, ((stop_closes_once_iff [] 2 stopTwice).2 _ rfl).2.2.1 (by decide +kernel)⟩

/-- The stop function of the signal handler and then its goroutine; and two calls of `Stop`
    that both look at `done` before either closes `stop`. -/
theorem stop_functions_close_twice :
    (List.foldlM SignalListener.step listenSIGUSR2
      [.unregister, .closeDone, .receiveDone, .closeDeferred]).map (·.done.closes) = some 2 ∧
    (List.foldlM StopLimiter.step (newStopLimiter 2)
      [.newTicker, .call, .call, .check 0, .check 1, .closeStop 0, .closeStop 1]).map
        (·.stop.closes) = some 2 := by
  decide

end HootLb
