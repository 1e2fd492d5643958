import HootLb.Native.Dashboard

/-!
# Closing the dashboard

What is true of the handlers and of `Close` in every reachable state: the wait
group counts the handlers between `Add` and `Done`, and `wsConns` has the
connections of those between `Track` and `Untrack` (`Booked`). From there the
phases of `Close` narrow down what can still be open, as long as no handler is
caught where neither `Shutdown` nor `Range` nor `Wait` knows of it (`Orderly`):

1. after `Shutdown` every open connection is one that `Range` has to come to,
2. after `Range` none is open,
3. after `Wait` none is served.
-/

namespace HootLb.Dashboard

open Semaphore (Accounts)

/-! ## Bookkeeping -/

/-- Between `wg.Add(1)` and `wg.Done()`. -/
def Viewer.counted (v : Viewer) : Bool := v.phase = .serving || v.phase = .served

/-- Between `Track` and `Untrack`. -/
def ViewerPhase.isTracked : ViewerPhase → Bool
  | .tracked | .serving | .served | .released => true
  | .requested | .checked | .hijacked | .failed | .upgraded | .untracked | .finished => false

/-- The wait group and the map of connections know what they should know. -/
structure AdminServer.Booked (s : AdminServer) : Prop where
  counted : Accounts Viewer.counted s.wsWg
  stored : ∀ i, i ∈ s.wsConns ↔ ∃ v, s.viewers[i]? = some v ∧ v.phase.isTracked = true

section Booked

variable {s : AdminServer} {i : Nat} {v : Viewer}

/-- How a handler that moves on is seen. -/
theorem viewers_set (hi : s.viewers[i]? = some v) (v' : Viewer) (j : Nat) :
    (s.viewers.set i v')[j]? = if j = i then some v' else s.viewers[j]? :=
  s.wsWg.getElem?_set_of_some i j v v' hi

/-- The map agrees with the handlers again after one of them has moved on. -/
theorem AdminServer.Booked.stored_set (h : s.Booked) (hi : s.viewers[i]? = some v) {v' : Viewer}
    {wsConns : Finset Nat} (hself : i ∈ wsConns ↔ v'.phase.isTracked = true)
    (hother : ∀ j, j ≠ i → (j ∈ wsConns ↔ j ∈ s.wsConns)) (j : Nat) :
    j ∈ wsConns ↔ ∃ w, (s.viewers.set i v')[j]? = some w ∧ w.phase.isTracked = true := by
  rw [viewers_set hi]
  by_cases hji : j = i
  · subst hji
    simpa using hself
  · rw [if_neg hji, hother j hji]
    exact h.stored j

/-- A handler that keeps its place in the map. -/
theorem AdminServer.Booked.stored_keep (h : s.Booked) (hi : s.viewers[i]? = some v) {v' : Viewer}
    (hsame : v'.phase.isTracked = v.phase.isTracked) (j : Nat) :
    j ∈ s.wsConns ↔ ∃ w, (s.viewers.set i v')[j]? = some w ∧ w.phase.isTracked = true := by
  refine h.stored_set hi ?_ (fun _ _ => Iff.rfl) j
  rw [h.stored i, hi, hsame]
  simp

/-- Most steps are neither about the wait group nor about the map. -/
theorem Viewer.next_keeps (token : String) (ok : Bool)
    (hphase : v.phase ∉ [.upgraded, .tracked, .served, .released]) :
    (v.next token ok).counted = v.counted ∧
      (v.next token ok).phase.isTracked = v.phase.isTracked := by
  unfold Viewer.next Viewer.counted
  cases hv : v.phase with
  | requested =>
    dsimp only
    split <;> simp [ViewerPhase.isTracked]
  | checked => cases ok <;> simp [ViewerPhase.isTracked]
  | hijacked => cases ok <;> simp [ViewerPhase.isTracked]
  | failed => simp [ViewerPhase.isTracked]
  | serving => simp [ViewerPhase.isTracked]
  | untracked => simp [ViewerPhase.isTracked]
  | finished => simp [hv]
  | upgraded => simp [hv] at hphase
  | tracked => simp [hv] at hphase
  | served => simp [hv] at hphase
  | released => simp [hv] at hphase

/-- What the next step of a handler does to the server. -/
structure AdminServer.Advanced (s s' : AdminServer) (i : Nat) (v' : Viewer) : Prop where
  viewers : s'.viewers = s.viewers.set i v'
  close : s'.close = s.close
  drained : s'.drained = s.drained
  booked : s'.Booked

theorem AdminServer.Booked.advance (h : s.Booked) (hi : s.viewers[i]? = some v) (token : String)
    (ok : Bool) : AdminServer.Advanced s (s.advance token i ok) i (v.next token ok) := by
  have hmove : v.phase ∉ [.upgraded, .tracked, .served, .released] →
      AdminServer.Advanced s { s with wsWg := s.wsWg.move i (v.next token ok) } i
        (v.next token ok) := by
    intro hphase
    obtain ⟨hcounted, htracked⟩ := Viewer.next_keeps token ok hphase
    exact ⟨rfl, rfl, rfl, h.counted.move hi hcounted, h.stored_keep hi htracked⟩
  unfold AdminServer.advance
  rw [hi]
  dsimp only
  cases hphase : v.phase with
  -- `Track`
  | upgraded =>
    refine ⟨rfl, rfl, rfl, h.counted.move hi ?_, h.stored_set hi ?_ ?_⟩
    · simp [Viewer.next, hphase, Viewer.counted]
    · simp [Viewer.next, hphase, ViewerPhase.isTracked]
    · intro j hj
      simp [hj]
  -- `wg.Add(1)`
  | tracked =>
    refine ⟨rfl, rfl, rfl, h.counted.take hi ?_ ?_, h.stored_keep hi ?_⟩
    · simp [Viewer.counted, hphase]
    · simp [Viewer.next, hphase, Viewer.counted]
    · simp [Viewer.next, hphase, ViewerPhase.isTracked]
  -- `wg.Done()`; the handler counts itself, so the counter is not zero
  | served =>
    have hbefore : v.counted = true := by simp [Viewer.counted, hphase]
    have hafter : (v.next token ok).counted = false := by
      simp [Viewer.next, hphase, Viewer.counted]
    obtain ⟨hgive, hcounted⟩ := h.counted.give hi hbefore hafter
    rw [hgive]
    refine ⟨rfl, rfl, rfl, hcounted, h.stored_keep hi ?_⟩
    simp [Viewer.next, hphase, ViewerPhase.isTracked]
  -- `Untrack`
  | released =>
    refine ⟨rfl, rfl, rfl, h.counted.move hi ?_, h.stored_set hi ?_ ?_⟩
    · simp [Viewer.next, hphase, Viewer.counted]
    · simp [Viewer.next, hphase, ViewerPhase.isTracked]
    · intro j hj
      simp [hj]
  | _ => exact hmove (by simp [hphase])

end Booked

/-! ## What can still be open -/

/-- Past `Track`. -/
def ViewerPhase.isLate : ViewerPhase → Bool
  | .tracked | .serving | .served | .released | .untracked | .finished => true
  | .requested | .checked | .hijacked | .failed | .upgraded => false

/-- Where handler `i` may be, for each place of `Close`. -/
def Settles (close : CloseCall) (i : Nat) (v : Viewer) : Prop :=
  match close with
  | .notCalled => True
  | .shutdown => True
  | .range left =>
    v.phase.isLate = true ∧ (v.connOpen = true → i ∈ left ∧ v.phase.isTracked = true)
  | .wait => v.phase.isLate = true ∧ v.connOpen = false
  | .returned =>
    (v.phase = .released ∨ v.phase = .untracked ∨ v.phase = .finished) ∧ v.connOpen = false

/-- `Shutdown` has returned. -/
def CloseCall.pastShutdown : CloseCall → Bool
  | .notCalled | .shutdown => false
  | .range _ | .wait | .returned => true

def CloseCall.inRange : CloseCall → Bool
  | .range _ => true
  | .notCalled | .shutdown | .wait | .returned => false

/-- Before `Hijack` and after the last step there is no open connection. -/
def Viewer.Owns (v : Viewer) : Prop :=
  v.phase ∈ [.requested, .checked, .finished] → v.connOpen = false

structure AdminServer.Orders (s : AdminServer) : Prop where
  booked : s.Booked
  owns : ∀ v ∈ s.viewers, v.Owns
  settles : ∀ i v, s.viewers[i]? = some v → Settles s.close i v
  drained : s.close.pastShutdown = true → s.drained = true

/-- No handler is caught where `Close` does not know of it: the context does not
    expire during `Shutdown`; when `Shutdown` returns no handler is between `Hijack`
    and `Track`, nor between `Untrack` and the end; a handler that untracks its
    connection during `Range` does so after `Range` has closed it; and when `Wait`
    returns no handler is between `Track` and `Add`. -/
def Orderly (s : AdminServer) : AdminAction → Prop
  | .shutdownExpires => s.close ≠ .shutdown
  | .shutdownReturns => s.close = .shutdown → ∀ v ∈ s.viewers,
      v.phase ≠ .hijacked ∧ v.phase ≠ .failed ∧ v.phase ≠ .upgraded ∧ v.phase ≠ .untracked
  | .next i _ => s.close.inRange = true → ∀ v ∈ s.viewers[i]?,
      v.phase = .released → v.connOpen = false
  | .waitReturns => s.close = .wait → ∀ v ∈ s.viewers, v.phase ≠ .tracked
  | .request _ | .callClose | .visit _ | .rangeReturns => True

instance decidableOrderly (s : AdminServer) : (a : AdminAction) → Decidable (Orderly s a)
  | .shutdownExpires => inferInstanceAs (Decidable (s.close ≠ .shutdown))
  | .shutdownReturns => inferInstanceAs (Decidable (s.close = .shutdown → ∀ v ∈ s.viewers,
      v.phase ≠ .hijacked ∧ v.phase ≠ .failed ∧ v.phase ≠ .upgraded ∧ v.phase ≠ .untracked))
  | .next i _ => inferInstanceAs (Decidable (s.close.inRange = true → ∀ v ∈ s.viewers[i]?,
      v.phase = .released → v.connOpen = false))
  | .waitReturns =>
    inferInstanceAs (Decidable (s.close = .wait → ∀ v ∈ s.viewers, v.phase ≠ .tracked))
  | .request _ | .callClose | .visit _ | .rangeReturns => .isTrue trivial

/-! ## Steps -/

theorem newAdminServer_orders : newAdminServer.Orders where
  booked := { counted := .empty, stored := by simp [newAdminServer, AdminServer.viewers,
    Semaphore.empty] }
  owns := nofun
  settles := nofun
  drained := nofun

theorem Viewer.Owns.next {v : Viewer} (h : v.Owns) (token : String) (ok : Bool) :
    (v.next token ok).Owns := by
  unfold Viewer.Owns Viewer.next at *
  cases hv : v.phase with
  | requested =>
    intro _
    exact h (by simp [hv])
  | checked =>
    rw [hv] at h
    cases ok <;> simp_all
  | hijacked => cases ok <;> simp
  | finished =>
    intro _
    exact h (by simp [hv])
  | _ => simp

/-- A handler goes on while `Close` is somewhere. -/
theorem Settles.next {close : CloseCall} {i : Nat} {v : Viewer} (h : Settles close i v)
    (token : String) (ok : Bool)
    (hrange : close.inRange = true → v.phase = .released → v.connOpen = false) :
    Settles close i (v.next token ok) := by
  cases close with
  | notCalled => trivial
  | shutdown => trivial
  | range left =>
    obtain ⟨hlate, hopen⟩ := h
    have hclosed := hrange rfl
    unfold Settles Viewer.next
    cases hv : v.phase with
    | tracked => exact ⟨rfl, fun h => ⟨(hopen h).1, rfl⟩⟩
    | serving => exact ⟨rfl, fun h => ⟨(hopen h).1, rfl⟩⟩
    | served => exact ⟨rfl, fun h => ⟨(hopen h).1, rfl⟩⟩
    | released =>
      -- untracked, but closed
      refine ⟨rfl, fun h => ?_⟩
      exact absurd (hclosed hv) (by simpa using h)
    | untracked => exact ⟨rfl, nofun⟩
    | finished => exact ⟨hlate, hopen⟩
    | _ => rw [hv] at hlate; exact nomatch hlate
  | wait =>
    obtain ⟨hlate, hclosed⟩ := h
    unfold Settles Viewer.next
    cases hv : v.phase with
    | tracked => exact ⟨rfl, hclosed⟩
    | serving => exact ⟨rfl, hclosed⟩
    | served => exact ⟨rfl, hclosed⟩
    | released => exact ⟨rfl, hclosed⟩
    | untracked => exact ⟨rfl, rfl⟩
    | finished => exact ⟨hlate, hclosed⟩
    | _ => rw [hv] at hlate; exact nomatch hlate
  | returned =>
    obtain ⟨hphase, hclosed⟩ := h
    unfold Settles Viewer.next
    rcases hphase with hv | hv | hv
    · rw [hv]
      exact ⟨.inr (.inl rfl), hclosed⟩
    · rw [hv]
      exact ⟨.inr (.inr rfl), rfl⟩
    · rw [hv]
      exact ⟨.inr (.inr hv), hclosed⟩

section Steps

variable {s : AdminServer}

/-- What holds of every handler holds after one of them was replaced. -/
theorem forall_viewers_set {i : Nat} {v v' : Viewer} (hi : s.viewers[i]? = some v)
    {P : Nat → Viewer → Prop} (hself : P i v')
    (hother : ∀ j w, j ≠ i → s.viewers[j]? = some w → P j w) (j : Nat) (w : Viewer)
    (hj : (s.viewers.set i v')[j]? = some w) : P j w := by
  rw [viewers_set hi] at hj
  split at hj
  · rename_i hji
    cases hj
    rw [hji]
    exact hself
  · rename_i hji
    exact hother j w hji hj

/-- The next step of a handler. -/
theorem AdminServer.Orders.advance (h : s.Orders) (token : String) (i : Nat) (ok : Bool)
    (horderly : Orderly s (.next i ok)) : (s.advance token i ok).Orders := by
  cases hi : s.viewers[i]? with
  | none =>
    unfold AdminServer.advance
    rw [hi]
    exact h
  | some v =>
    have hadv := h.booked.advance hi token ok
    have hv := List.mem_of_getElem? hi
    constructor
    · exact hadv.booked
    · intro w hw
      rw [hadv.viewers] at hw
      rcases List.mem_or_eq_of_mem_set hw with hw | rfl
      · exact h.owns w hw
      · exact (h.owns v hv).next token ok
    · rw [hadv.viewers, hadv.close]
      refine forall_viewers_set hi ?_ (fun j w _ hj => h.settles j w hj)
      exact (h.settles i v hi).next token ok fun hrange => horderly hrange v hi
    · rw [hadv.close, hadv.drained]
      exact h.drained

/-- Another request. -/
theorem AdminServer.Orders.request (h : s.Orders) (r : UpgradeRequest) (hopen : s.drained = false) :
    AdminServer.Orders
      { s with wsWg := s.wsWg.enter { request := r, phase := .requested, connOpen := false } } := by
  -- a request can only come in while `Shutdown` has not returned
  have hearly : s.close.pastShutdown = false := by
    rw [Bool.eq_false_iff]
    intro hpast
    exact Bool.false_ne_true (hopen.symm.trans (h.drained hpast))
  constructor
  · refine ⟨h.booked.counted.enter rfl, fun i => ?_⟩
    rw [h.booked.stored i]
    unfold AdminServer.viewers
    rw [s.wsWg.getElem?_enter]
    split
    · rename_i hi
      rw [hi]
      simp [ViewerPhase.isTracked]
    · rfl
  · intro v hv
    rcases List.mem_append.mp hv with hv | hv
    · exact h.owns v hv
    · rw [List.mem_singleton.mp hv]
      intro _
      rfl
  · intro i v _
    dsimp only
    -- before the end of `Shutdown` anything is allowed
    cases hclose : s.close with
    | notCalled => trivial
    | shutdown => trivial
    | _ => rw [hclose] at hearly; exact nomatch hearly
  · exact h.drained

/-- `Shutdown` returns. -/
theorem AdminServer.Orders.range (h : s.Orders) (hidle : s.viewers.any AdminServer.owned = false)
    (horderly : ∀ v ∈ s.viewers,
      v.phase ≠ .hijacked ∧ v.phase ≠ .failed ∧ v.phase ≠ .upgraded ∧ v.phase ≠ .untracked) :
    AdminServer.Orders { s with close := .range s.wsConns, drained := true } := by
  refine ⟨⟨h.booked.counted, h.booked.stored⟩, h.owns, ?_, fun _ => rfl⟩
  intro i v hi
  have hv := List.mem_of_getElem? hi
  have hnot := List.any_eq_false.mp hidle v hv
  obtain ⟨hhijacked, hfailed, hupgraded, huntracked⟩ := horderly v hv
  have howns := h.owns v hv
  -- the phases that are left are those with the connection in the map, and the end
  have hcases : v.phase.isTracked = true ∨ v.phase = .finished := by
    cases hphase : v.phase with
    | requested => simp [AdminServer.owned, hphase] at hnot
    | checked => simp [AdminServer.owned, hphase] at hnot
    | hijacked => exact absurd hphase hhijacked
    | failed => exact absurd hphase hfailed
    | upgraded => exact absurd hphase hupgraded
    | untracked => exact absurd hphase huntracked
    | finished => exact .inr rfl
    | _ => exact .inl rfl
  rcases hcases with htracked | hfinished
  · refine ⟨?_, fun _ => ⟨(h.booked.stored i).mpr ⟨v, hi, htracked⟩, htracked⟩⟩
    cases hphase : v.phase <;> simp_all [ViewerPhase.isTracked, ViewerPhase.isLate]
  · refine ⟨by rw [hfinished]; rfl, fun hopen => ?_⟩
    exact absurd (howns (by simp [hfinished])) (by simpa using hopen)

/-- `Range` closes a connection. -/
theorem AdminServer.Orders.visit (h : s.Orders) {left : Finset Nat}
    (hclose : s.close = .range left) (i : Nat) :
    AdminServer.Orders { s.closeConn i with close := .range (left.erase i) } := by
  have hdrained : s.drained = true := h.drained (by rw [hclose]; rfl)
  have hsettles : ∀ j w, s.viewers[j]? = some w → Settles (.range left) j w := by
    intro j w hj
    rw [← hclose]
    exact h.settles j w hj
  -- a connection that `Range` has come to is not left
  have hother : ∀ j w, j ≠ i → s.viewers[j]? = some w → Settles (.range (left.erase i)) j w := by
    intro j w hji hj
    obtain ⟨hlate, hopen⟩ := hsettles j w hj
    exact ⟨hlate, fun ho => ⟨Finset.mem_erase.mpr ⟨hji, (hopen ho).1⟩, (hopen ho).2⟩⟩
  unfold AdminServer.closeConn
  cases hi : s.viewers[i]? with
  | none =>
    refine ⟨⟨h.booked.counted, h.booked.stored⟩, h.owns, fun j w hj => hother j w ?_ hj,
      fun _ => hdrained⟩
    rintro rfl
    exact nomatch hi.symm.trans hj
  | some v =>
    refine ⟨⟨h.booked.counted.move hi rfl, h.booked.stored_keep hi rfl⟩, ?_, ?_, fun _ => hdrained⟩
    · intro w hw
      rcases List.mem_or_eq_of_mem_set hw with hw | rfl
      · exact h.owns w hw
      · intro _
        rfl
    · exact forall_viewers_set hi ⟨(hsettles i v hi).1, nofun⟩ hother

/-- `Range` returns: everything that was left to visit has been untracked. -/
theorem AdminServer.Orders.wait (h : s.Orders) {left : Finset Nat} (hclose : s.close = .range left)
    (hleft : left ∩ s.wsConns = ∅) : AdminServer.Orders { s with close := .wait } := by
  refine ⟨⟨h.booked.counted, h.booked.stored⟩, h.owns, ?_, fun _ => ?_⟩
  · intro i v hi
    have hsettles := h.settles i v hi
    rw [hclose] at hsettles
    obtain ⟨hlate, hopen⟩ := hsettles
    refine ⟨hlate, ?_⟩
    rw [Bool.eq_false_iff]
    intro ho
    -- an open connection would still be in the map, and so `Range` would have to visit it
    obtain ⟨hmem, htracked⟩ := hopen ho
    have hboth : i ∈ left ∩ s.wsConns :=
      Finset.mem_inter.mpr ⟨hmem, (h.booked.stored i).mpr ⟨v, hi, htracked⟩⟩
    rw [hleft] at hboth
    exact absurd hboth (Finset.notMem_empty i)
  · exact h.drained (by rw [hclose]; rfl)

/-- `Wait` returns: no handler is between `Add` and `Done`. -/
theorem AdminServer.Orders.returned (h : s.Orders) (hclose : s.close = .wait)
    (hzero : s.wsWg.tokens = 0) (horderly : ∀ v ∈ s.viewers, v.phase ≠ .tracked) :
    AdminServer.Orders { s with close := .returned } := by
  refine ⟨⟨h.booked.counted, h.booked.stored⟩, h.owns, ?_, fun _ => ?_⟩
  · intro i v hi
    have hv := List.mem_of_getElem? hi
    have hsettles := h.settles i v hi
    rw [hclose] at hsettles
    obtain ⟨hlate, hclosed⟩ := hsettles
    have hcounted : v.counted ≠ true := by
      have hcount : s.wsWg.clients.countP Viewer.counted = 0 := h.booked.counted.symm.trans hzero
      exact List.countP_eq_zero.mp hcount v hv
    have htracked := horderly v hv
    -- past `Track`, not counted and not about to be: only the deferred calls are left
    refine ⟨?_, hclosed⟩
    cases hphase : v.phase <;>
      simp_all [ViewerPhase.isLate, Viewer.counted]
  · exact h.drained (by rw [hclose]; rfl)

theorem AdminServer.Orders.step (h : s.Orders) (token : String) (a : AdminAction)
    (horderly : Orderly s a) : (s.step token a).Orders := by
  cases a with
  | request r =>
    rw [AdminServer.step]
    split
    · exact h
    · rename_i hopen
      exact h.request r (by simpa using hopen)
  | next i ok => exact h.advance token i ok horderly
  | callClose =>
    unfold AdminServer.step
    cases hclose : s.close with
    | notCalled =>
      exact ⟨⟨h.booked.counted, h.booked.stored⟩, h.owns, fun _ _ _ => trivial, nofun⟩
    | _ => exact h
  | shutdownReturns =>
    unfold AdminServer.step
    cases hclose : s.close with
    | shutdown =>
      dsimp only
      split
      · exact h
      · rename_i hidle
        exact h.range (by simpa using hidle) (horderly hclose)
    | _ => exact h
  | shutdownExpires =>
    unfold AdminServer.step
    cases hclose : s.close with
    | shutdown => exact absurd hclose horderly
    | _ => exact h
  | visit i =>
    unfold AdminServer.step
    cases hclose : s.close with
    | range left =>
      dsimp only
      split
      · exact h.visit hclose i
      · exact h
    | _ => exact h
  | rangeReturns =>
    unfold AdminServer.step
    cases hclose : s.close with
    | range left =>
      dsimp only
      split
      · rename_i hleft
        exact h.wait hclose hleft
      · exact h
    | _ => exact h
  | waitReturns =>
    unfold AdminServer.step
    cases hclose : s.close with
    | wait =>
      dsimp only
      split
      · rename_i hzero
        exact h.returned hclose hzero (horderly hclose)
      · exact h
    | _ => exact h

end Steps

/-- Once `Close` has returned no dashboard connection is open and none is served, if no
    handler is caught between the calls by which `Close` knows of it. -/
theorem no_viewer_outlives_close (token : String) (run : List AdminAction)
    (horderly : List.Along (AdminServer.step token) Orderly newAdminServer run)
    (hreturned : (run.foldl (AdminServer.step token) newAdminServer).close = .returned) :
    ∀ v ∈ (run.foldl (AdminServer.step token) newAdminServer).viewers,
      v.connOpen = false ∧ v.phase ≠ .serving := by
  have horders : (run.foldl (AdminServer.step token) newAdminServer).Orders :=
    List.foldl_along (AdminServer.step token) Orderly AdminServer.Orders
      (fun s a h ha => h.step token a ha) newAdminServer newAdminServer_orders run horderly
  intro v hv
  obtain ⟨i, hi⟩ := List.mem_iff_getElem?.mp hv
  have hsettles := horders.settles i v hi
  rw [hreturned] at hsettles
  obtain ⟨hphase, hclosed⟩ := hsettles
  refine ⟨hclosed, ?_⟩
  rcases hphase with hphase | hphase | hphase <;> simp [hphase]

/-! ## A viewer and a shutdown -/

/-- An upgrade request with the right token. -/
def upgradeRequest : UpgradeRequest :=
  { method := "GET", token := "secret"
    headers := (((∅ : L7.Header).insert "Connection" ["keep-alive, Upgrade"]).insert "Upgrade"
      ["WebSocket"]).insert "Sec-Websocket-Key" ["dGhlIHNhbXBsZSBub25jZQ=="]
    hijacker := true }

/-- A request comes, its handler takes `n` steps, and then this happens. -/
def viewerAt (n : Nat) (rest : List AdminAction) : List AdminAction :=
  .request upgradeRequest :: List.replicate n (.next 0 true) ++ rest

def afterRun (run : List AdminAction) : AdminServer :=
  run.foldl (AdminServer.step "secret") newAdminServer

/-- Where `Close` and the handlers are, and which connections are open. -/
def observed (run : List AdminAction) : CloseCall × List (ViewerPhase × Bool) :=
  ((afterRun run).close, (afterRun run).viewers.map fun v => (v.phase, v.connOpen))

/-- `Close` finds a viewer that is being served. -/
def closeServed : List AdminAction :=
  viewerAt 5 [.callClose, .shutdownReturns, .visit 0, .rangeReturns, .next 0 true, .next 0 true,
    .waitReturns]

/-- The theorem at that run. -/
theorem served_viewer_closed :
    observed (viewerAt 5 []) = (.notCalled, [(.serving, true)]) ∧
    (afterRun closeServed).close = .returned ∧
    ∀ v ∈ (afterRun closeServed).viewers, v.connOpen = false ∧ v.phase ≠ .serving := by
  have hreturned : (afterRun closeServed).close = .returned := by decide +kernel
  have horderly : List.Along (AdminServer.step "secret") Orderly newAdminServer closeServed := by
    decide +kernel
  exact ⟨by decide +kernel, hreturned,
    no_viewer_outlives_close "secret" closeServed horderly hreturned⟩

/-- Three windows. A viewer that is upgraded and not yet tracked when `Close` runs is
    served after `Close` has returned, over an open connection; one that is tracked and
    not yet counted is served after `Close` has returned; and one that has untracked
    its connection has not closed it when `Close` returns. -/
theorem viewers_outlive_close :
    observed (viewerAt 3 [.callClose, .shutdownReturns, .rangeReturns, .waitReturns, .next 0 true,
      .next 0 true]) = (.returned, [(.serving, true)]) ∧
    observed (viewerAt 4 [.callClose, .shutdownReturns, .visit 0, .rangeReturns, .waitReturns,
      .next 0 true]) = (.returned, [(.serving, false)]) ∧
    observed (viewerAt 8 [.callClose, .shutdownReturns, .rangeReturns, .waitReturns]) =
      (.returned, [(.untracked, true)]) := by
  decide +kernel

end HootLb.Dashboard
