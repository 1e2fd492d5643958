import HootLb.ForStd.Trace
import HootLb.Native.ConnLimit

/-!
# Accounting of the connection limits

Both kinds of listener use their channel by the discipline of
`Semaphore.Admission`: a connection arrives, is admitted with a token or refused
without one, and gives its token back once. For the accept loops this needs that
the loop and the connection it holds agree about how far they are (`Agrees`), since
the loop acts on the connection by its number.
-/

open Semaphore (Admission Accounts Limits)

namespace HootLb.L4

/-- Admitted and not yet finished. -/
def ConnPhase.inFlight : ConnPhase → Bool
  | .admitted | .aborting | .serving | .served => true
  | .accepted | .refused | .finished => false

/-- The loop and the connection it works on. -/
def AcceptServer.Agrees (s : AcceptServer) : Prop :=
  match s.loop with
  | .accept | .returned => True
  | .select conn => s.sem.clients[conn]? = some .accepted
  | .lock conn => s.sem.clients[conn]? = some .admitted
  | .abort conn => s.sem.clients[conn]? = some .aborting

/-- The token of the connection that came too late is still taken. -/
theorem AcceptServer.Agrees.aborting {s : AcceptServer} (h : s.Agrees) {conn : Nat}
    (hloop : s.loop = .abort conn) : s.sem.clients[conn]? = some .aborting := by
  unfold Agrees at h
  rwa [hloop] at h

theorem connSem_pos {m : Nat} (hm : 0 < m) : connSem m = some m := by
  unfold connSem
  rw [if_pos (Int.natCast_pos.mpr hm), Int.toNat_natCast]

/-- With a limit, the token that goes back comes out of the channel. -/
theorem giveBack_pos {m : Nat} (hm : 0 < m) (sem : Semaphore ConnPhase) (conn : Nat) :
    giveBack m sem conn = sem.give conn .finished := by
  unfold giveBack
  rw [connSem_pos hm]

/-- Another connection than the loop's has moved. -/
theorem AcceptServer.Agrees.of_set {s : AcceptServer} (h : s.Agrees) {conn : Nat}
    {a b : ConnPhase} (hconn : s.sem.clients[conn]? = some a)
    (ha : a = .serving ∨ a = .served) {sem : Semaphore ConnPhase}
    (hsem : sem.clients = s.sem.clients.set conn b) : AcceptServer.Agrees { s with sem } := by
  -- the loop's own connection has not got to its goroutine yet, so it is another one
  have hother : ∀ (k : Nat) (p : ConnPhase), s.sem.clients[k]? = some p → p ≠ .serving →
      p ≠ .served → sem.clients[k]? = some p := by
    intro k p hk hserving hserved
    rw [hsem, s.sem.getElem?_set_of_some conn k a b hconn, if_neg]
    · exact hk
    · rintro rfl
      have hpa : p = a := Option.some.inj (hk.symm.trans hconn)
      rcases ha with ha | ha
      · exact hserving (hpa.trans ha)
      · exact hserved (hpa.trans ha)
  unfold Agrees at h ⊢
  cases hloop : s.loop with
  | accept => trivial
  | returned => trivial
  | select k =>
    rw [hloop] at h
    exact hother k .accepted h (by decide) (by decide)
  | lock k =>
    rw [hloop] at h
    exact hother k .admitted h (by decide) (by decide)
  | abort k =>
    rw [hloop] at h
    exact hother k .aborting h (by decide) (by decide)

/-- What a step of the accept loop, of a handler or of `Close` does to the channel. -/
theorem AcceptServer.step_admission {m : Nat} (hm : 0 < m) {s s' : AcceptServer}
    {a : AcceptAction} (h : s.Agrees) (hstep : s.step m a = some s') :
    Admission ConnPhase.inFlight m .accepted .refused s.sem s'.sem ∧ s'.Agrees := by
  -- the phase of a connection that has just been moved
  have hmoved : ∀ (conn : Nat) (p q : ConnPhase), s.sem.clients[conn]? = some p →
      (s.sem.clients.set conn q)[conn]? = some q := by
    intro conn p q hp
    rw [s.sem.getElem?_set_of_some conn conn p q hp, if_pos rfl]
  cases a with
  | accept =>
    rw [step] at hstep
    split at hstep
    · cases hstep
      refine ⟨.arrive rfl, ?_⟩
      simp [Agrees, Semaphore.enter]
    · exact nomatch hstep
  | acceptFails =>
    rw [step] at hstep
    split at hstep
    · cases hstep
      exact ⟨.rest rfl, trivial⟩
    · exact nomatch hstep
  | select =>
    rw [step] at hstep
    rw [connSem_pos hm] at hstep
    split at hstep
    case h_2 => exact nomatch hstep
    case h_1 conn hloop =>
      have hconn : s.sem.clients[conn]? = some .accepted := by
        unfold Agrees at h
        rwa [hloop] at h
      dsimp only at hstep
      split at hstep
      case isTrue hroom =>
        cases hstep
        exact ⟨.grant conn .admitted hconn rfl hroom rfl, hmoved conn _ _ hconn⟩
      case isFalse hroom =>
        cases hstep
        exact ⟨.refuse conn hconn (Nat.le_of_not_lt hroom) rfl, trivial⟩
  | lock =>
    rw [step] at hstep
    split at hstep
    case h_2 => exact nomatch hstep
    case h_1 conn hloop =>
      have hconn : s.sem.clients[conn]? = some .admitted := by
        unfold Agrees at h
        rwa [hloop] at h
      -- `Close` may have been faster; the token is given back by the next step of the loop
      split at hstep
      · cases hstep
        exact ⟨.proceed conn .admitted .aborting hconn rfl rfl rfl, hmoved conn _ _ hconn⟩
      · cases hstep
        exact ⟨.proceed conn .admitted .serving hconn rfl rfl rfl, trivial⟩
  | abort =>
    rw [step] at hstep
    split at hstep
    case h_2 => exact nomatch hstep
    case h_1 conn hloop =>
      rw [giveBack_pos hm] at hstep
      obtain ⟨sem, hgive, rfl⟩ := Option.map_eq_some_iff.mp hstep
      exact ⟨.leave conn .aborting .finished (h.aborting hloop) rfl rfl (by decide) hgive, trivial⟩
  | handled conn =>
    rw [step] at hstep
    split at hstep
    case isFalse => exact nomatch hstep
    case isTrue hconn =>
      cases hstep
      exact ⟨.proceed conn .serving .served hconn rfl rfl rfl, h.of_set hconn (.inl rfl) rfl⟩
  | release conn =>
    rw [step] at hstep
    split at hstep
    case isFalse => exact nomatch hstep
    case isTrue hconn =>
      rw [giveBack_pos hm] at hstep
      obtain ⟨sem, hgive, rfl⟩ := Option.map_eq_some_iff.mp hstep
      exact ⟨.leave conn .served .finished hconn rfl rfl (by decide) hgive,
        h.of_set hconn (.inr rfl) (s.sem.clients_give conn _ hgive)⟩
  | close =>
    cases hstep
    exact ⟨.rest rfl, h⟩

/-- What holds of a server after any run. -/
structure AcceptServer.Accounted (m : Nat) (s : AcceptServer) : Prop where
  agrees : s.Agrees
  accounts : Accounts ConnPhase.inFlight s.sem
  bounded : s.sem.tokens ≤ m

theorem AcceptServer.run_accounted {m : Nat} (hm : 0 < m) (run : List AcceptAction)
    (s : AcceptServer) (hrun : run.foldlM (AcceptServer.step m) newAcceptServer = some s) :
    s.Accounted m := by
  -- `Agrees` is part of it: the loop moves its connection without looking at the phase
  refine List.foldlM_invariant ?_ run newAcceptServer s ?_ hrun
  · intro s a s' h hstep
    obtain ⟨hadm, hagrees⟩ := step_admission hm h.agrees hstep
    obtain ⟨haccounts, hle⟩ := hadm.accounts rfl rfl h.accounts h.bounded
    exact ⟨hagrees, haccounts, hle⟩
  · exact ⟨trivial, .empty, Nat.zero_le _⟩

/-- The deferred receive of a handler does not block. -/
theorem AcceptServer.Accounted.release {m : Nat} (hm : 0 < m) {s : AcceptServer}
    (h : s.Accounted m) {conn : Nat} (hconn : s.sem.clients[conn]? = some .served) :
    (s.step m (.release conn)).isSome := by
  rw [step, if_pos hconn, giveBack_pos hm, (h.accounts.give hconn rfl rfl).1]
  rfl

/-- Nor does the one of the loop when the server is closing. -/
theorem AcceptServer.Accounted.abort {m : Nat} (hm : 0 < m) {s : AcceptServer}
    (h : s.Accounted m) {conn : Nat} (hloop : s.loop = .abort conn) :
    (s.step m .abort).isSome := by
  rw [step, hloop]
  dsimp only
  rw [giveBack_pos hm, (h.accounts.give (h.agrees.aborting hloop) rfl rfl).1]
  rfl

end HootLb.L4

namespace HootLb.L7

/-- Handed out and not yet released. -/
def LimitedPhase.inFlight : LimitedPhase → Bool
  | .open | .releasing => true
  | .accepted | .refused | .released => false

/-- `Accept` and the connection it works on. -/
def LimitedListener.Agrees (s : LimitedListener) : Prop :=
  match s.loop with
  | .accept => True
  | .select conn => s.sem.clients[conn]? = some .accepted

/-- Another connection than the one in `Accept` has moved. -/
theorem LimitedListener.Agrees.of_set {s : LimitedListener} (h : s.Agrees) {conn : Nat}
    {a b : LimitedPhase} (hconn : s.sem.clients[conn]? = some a) (ha : a ≠ .accepted)
    {sem : Semaphore LimitedPhase} (hsem : sem.clients = s.sem.clients.set conn b) :
    LimitedListener.Agrees { s with sem } := by
  unfold Agrees at h ⊢
  cases hloop : s.loop with
  | accept => trivial
  | select k =>
    rw [hloop] at h
    dsimp only at h ⊢
    rw [hsem, s.sem.getElem?_set_of_some conn k a b hconn, if_neg]
    · exact h
    · rintro rfl
      exact ha (Option.some.inj (hconn.symm.trans h))

/-- What a step of `Accept` or of a `Close` does to the channel. -/
theorem LimitedListener.step_admission {capacity : Nat} {s s' : LimitedListener}
    {a : LimitedAction} (h : s.Agrees) (hstep : s.step capacity a = some s') :
    Admission LimitedPhase.inFlight capacity .accepted .refused s.sem s'.sem ∧ s'.Agrees := by
  cases a with
  | accept =>
    rw [step] at hstep
    split at hstep
    · cases hstep
      refine ⟨.arrive rfl, ?_⟩
      simp [Agrees, Semaphore.enter]
    · exact nomatch hstep
  | select =>
    rw [step] at hstep
    split at hstep
    case h_2 => exact nomatch hstep
    case h_1 conn hloop =>
      have hconn : s.sem.clients[conn]? = some .accepted := by
        unfold Agrees at h
        rwa [hloop] at h
      split at hstep
      case isTrue hroom =>
        cases hstep
        exact ⟨.grant conn .open hconn rfl hroom rfl, trivial⟩
      case isFalse hroom =>
        cases hstep
        exact ⟨.refuse conn hconn (Nat.le_of_not_lt hroom) rfl, trivial⟩
  | close conn =>
    rw [step] at hstep
    split at hstep
    case h_1 hconn =>
      cases hstep
      exact ⟨.proceed conn .open .releasing hconn rfl rfl rfl, h.of_set hconn (by decide) rfl⟩
    -- a `Close` that finds the flag set leaves the channel alone
    case h_2 =>
      cases hstep
      exact ⟨.rest rfl, h⟩
    case h_3 =>
      cases hstep
      exact ⟨.rest rfl, h⟩
    case h_4 => exact nomatch hstep
  | receive conn =>
    rw [step] at hstep
    split at hstep
    case isFalse => exact nomatch hstep
    case isTrue hconn =>
      obtain ⟨sem, hgive, rfl⟩ := Option.map_eq_some_iff.mp hstep
      exact ⟨.leave conn .releasing .released hconn rfl rfl (by decide) hgive,
        h.of_set hconn (by decide) (s.sem.clients_give conn _ hgive)⟩

/-- What holds of a listener after any run. -/
structure LimitedListener.Accounted (capacity : Nat) (s : LimitedListener) : Prop where
  agrees : s.Agrees
  accounts : Accounts LimitedPhase.inFlight s.sem
  bounded : s.sem.tokens ≤ capacity

theorem LimitedListener.run_accounted (capacity : Nat) (run : List LimitedAction)
    (s : LimitedListener)
    (hrun : run.foldlM (LimitedListener.step capacity) newLimitedListener = some s) :
    s.Accounted capacity := by
  refine List.foldlM_invariant ?_ run newLimitedListener s ?_ hrun
  · intro s a s' h hstep
    obtain ⟨hadm, hagrees⟩ := step_admission h.agrees hstep
    obtain ⟨haccounts, hle⟩ := hadm.accounts rfl rfl h.accounts h.bounded
    exact ⟨hagrees, haccounts, hle⟩
  · exact ⟨trivial, .empty, Nat.zero_le _⟩

/-- The receive of the `Close` that won the flag does not block. -/
theorem LimitedListener.Accounted.receive {capacity : Nat} {s : LimitedListener}
    (h : s.Accounted capacity) {conn : Nat} (hconn : s.sem.clients[conn]? = some .releasing) :
    (s.step capacity (.receive conn)).isSome := by
  rw [step, if_pos hconn, (h.accounts.give hconn rfl rfl).1]
  rfl

end HootLb.L7

namespace HootLb

/-- Under a limit the channel of a listener holds one token for each admitted
    connection that has not finished, whatever the accept loop, the handlers,
    repeated calls of `Close` and the shutdown do, and no receive from it blocks. -/
theorem connection_limit (m : Nat) (hm : 0 < m) :
    (∀ (run : List L4.AcceptAction) (s : L4.AcceptServer),
      run.foldlM (L4.AcceptServer.step m) L4.newAcceptServer = some s →
      Limits L4.ConnPhase.inFlight m .accepted .refused s.sem
        (fun sem => ∃ a s', s.step m a = some s' ∧ s'.sem = sem) ∧
      (∀ conn, s.sem.clients[conn]? = some .served → (s.step m (.release conn)).isSome) ∧
      (∀ conn, s.loop = .abort conn → (s.step m .abort).isSome)) ∧
    (∀ (run : List L7.LimitedAction) (s : L7.LimitedListener),
      run.foldlM (L7.LimitedListener.step m) L7.newLimitedListener = some s →
      Limits L7.LimitedPhase.inFlight m .accepted .refused s.sem
        (fun sem => ∃ a s', s.step m a = some s' ∧ s'.sem = sem) ∧
      (∀ conn, s.sem.clients[conn]? = some .releasing →
        (s.step m (.receive conn)).isSome)) := by
  constructor
  · intro run s hrun
    have h := L4.AcceptServer.run_accounted hm run s hrun
    refine ⟨.of_admission (by decide) rfl h.accounts h.bounded ?_,
      fun conn hconn => h.release hm hconn, fun conn hloop => h.abort hm hloop⟩
    rintro sem ⟨a, s', hstep, rfl⟩
    exact (L4.AcceptServer.step_admission hm h.agrees hstep).1
  · intro run s hrun
    have h := L7.LimitedListener.run_accounted m run s hrun
    refine ⟨.of_admission (by decide) rfl h.accounts h.bounded ?_,
      fun conn hconn => h.receive hconn⟩
    rintro sem ⟨a, s', hstep, rfl⟩
    exact (L7.LimitedListener.step_admission h.agrees hstep).1

/-- A second connection is refused while the first one is served, and the handler of
    the first, which returns after `Close`, gives the token back. -/
theorem second_connection_refused : ∃ s : L4.AcceptServer,
    [.accept, .select, .lock, .accept, .select, .close, .handled 0].foldlM
      (L4.AcceptServer.step (1 : Nat)) L4.newAcceptServer = some s ∧
    s.sem.clients = [.served, .refused] ∧ s.sem.tokens = 1 ∧
    (s.step (1 : Nat) (.release 0)).isSome := by
  have hrun : ([.accept, .select, .lock, .accept, .select, .close, .handled 0].foldlM
      (L4.AcceptServer.step (1 : Nat)) L4.newAcceptServer).map (·.sem.clients) =
      some [.served, .refused] := by decide +kernel
  obtain ⟨s, hs, hclients⟩ := Option.map_eq_some_iff.mp hrun
  obtain ⟨hlimits, hrelease, -⟩ := (connection_limit 1 (by decide)).1 _ s hs
  refine ⟨s, hs, hclients, ?_, hrelease 0 ?_⟩
  · rw [hlimits.tokens, hclients]
    rfl
  · rw [hclients]
    rfl

end HootLb
