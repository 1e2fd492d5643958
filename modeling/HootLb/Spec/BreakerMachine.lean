import HootLb.ForStd.Trace
import HootLb.Native.Breaker

/-!
# The circuit breaker as a state machine

Any sequence of calls on one breaker, with the flag it shares with its server.
What a call does is described in terms of the calls before it: the failures since
the circuit last closed, the time it last opened, the requests let through in the
present half-open episode.

## Key results

- `Circuit.call_closed`, `Circuit.call_open`, `Circuit.call_halfOpen`: what a call
  does in each state
- `Circuit.Follows.call`: one call keeps the counters in step with the calls so far
- `circuit_transitions`: the transitions of every run
-/

namespace HootLb.Circuitbreaker

/-- The methods of a breaker. -/
inductive Method where
  | allow
  | recordSuccess
  | recordFailure
  | state
  deriving DecidableEq

/-- A call and the reading of the clock during it. -/
structure Call where
  method : Method
  now : Time
  deriving DecidableEq

/-- A breaker and the flag it points to. -/
structure Circuit where
  breaker : Breaker
  flag : Bool
  deriving DecidableEq

namespace Circuit

/-- A new breaker on a flag that is down. -/
def new (failureThreshold : Int) (openDuration : Duration) (halfOpenMaxProbes : Int) : Circuit :=
  ⟨newBreaker failureThreshold openDuration halfOpenMaxProbes, false⟩

/-- The stored state. -/
def state (c : Circuit) : State := c.breaker.state

/-- Breaker and flag after a call. -/
def call (c : Circuit) (k : Call) : Circuit :=
  match k.method with
  | .allow => ⟨(c.breaker.allow k.now c.flag).2.1, (c.breaker.allow k.now c.flag).2.2⟩
  | .recordSuccess => ⟨(c.breaker.recordSuccess c.flag).1, (c.breaker.recordSuccess c.flag).2⟩
  | .recordFailure =>
    ⟨(c.breaker.recordFailure k.now c.flag).1, (c.breaker.recordFailure k.now c.flag).2⟩
  | .state => ⟨(c.breaker.currentState k.now c.flag).2.1, (c.breaker.currentState k.now c.flag).2.2⟩

/-- The call is an `Allow` that returns true. -/
def admits (c : Circuit) (k : Call) : Bool :=
  k.method = .allow && (c.breaker.allow k.now c.flag).1

/-- The circuit opened at a time. -/
def opened (c : Circuit) (now : Time) : Circuit :=
  ⟨(c.breaker.openCircuit now).1, (c.breaker.openCircuit now).2⟩

/-! ## One call in each state -/

/-- A closed circuit lets everything through and counts failures. -/
theorem call_closed (c : Circuit) (k : Call) (h : c.state = .closed) :
    c.call k =
      match k.method with
      | .allow | .state => c
      | .recordSuccess => { c with breaker := { c.breaker with consecutiveFail := 0 } }
      | .recordFailure =>
        if c.breaker.consecutiveFail + 1 ≥ c.breaker.failureThreshold then c.opened k.now
        else { c with
          breaker := { c.breaker with consecutiveFail := c.breaker.consecutiveFail + 1 } } := by
  have hs : c.breaker.state = .closed := h
  cases hm : k.method with
  | allow => simp [call, hm, Breaker.allow, hs]
  | state => simp [call, hm, Breaker.currentState, hs]
  | recordSuccess => simp [call, hm, Breaker.recordSuccess, hs]
  | recordFailure =>
    simp only [call, hm, Breaker.recordFailure, hs]
    split <;> rfl

/-- An open circuit waits for its cool-down and ignores reports. -/
theorem call_open (c : Circuit) (k : Call) (h : c.state = .open) :
    c.call k =
      if k.method = .allow ∧ c.breaker.cooledDown k.now then
        ⟨{ c.breaker with state := .halfOpen, halfOpenProbes := 1 }, false⟩
      else if k.method = .state ∧ c.breaker.cooledDown k.now then
        ⟨{ c.breaker with state := .halfOpen, halfOpenProbes := 0 }, false⟩
      else c := by
  have hs : c.breaker.state = .open := h
  cases hm : k.method with
  | allow => cases hcool : c.breaker.cooledDown k.now <;> simp [call, hm, Breaker.allow, hs, hcool]
  | state =>
    cases hcool : c.breaker.cooledDown k.now <;> simp [call, hm, Breaker.currentState, hs, hcool]
  | recordSuccess => simp [call, hm, Breaker.recordSuccess, hs]
  | recordFailure => simp [call, hm, Breaker.recordFailure, hs]

/-- A half-open circuit counts what it lets through; any report decides it. -/
theorem call_halfOpen (c : Circuit) (k : Call) (h : c.state = .halfOpen) :
    c.call k =
      match k.method with
      | .allow =>
        if c.breaker.halfOpenProbes < c.breaker.halfOpenMaxProbes then
          { c with breaker := { c.breaker with halfOpenProbes := c.breaker.halfOpenProbes + 1 } }
        else c
      | .state => c
      | .recordSuccess =>
        ⟨{ c.breaker with state := .closed, consecutiveFail := 0, halfOpenProbes := 0 }, false⟩
      | .recordFailure => c.opened k.now := by
  have hs : c.breaker.state = .halfOpen := h
  cases hm : k.method with
  | allow =>
    simp only [call, hm, Breaker.allow, hs]
    split <;> rfl
  | state => simp [call, hm, Breaker.currentState, hs]
  | recordSuccess => simp [call, hm, Breaker.recordSuccess, hs]
  | recordFailure => simp [call, hm, Breaker.recordFailure, hs, opened]

/-- When `Allow` returns true. -/
theorem admits_iff (c : Circuit) (k : Call) :
    c.admits k ↔ k.method = .allow ∧
      match c.state with
      | .closed => True
      | .open => c.breaker.cooledDown k.now
      | .halfOpen => c.breaker.halfOpenProbes < c.breaker.halfOpenMaxProbes := by
  unfold admits state Breaker.allow
  cases hs : c.breaker.state with
  | closed => simp
  | «open» => cases c.breaker.cooledDown k.now <;> simp
  | halfOpen =>
    by_cases hlt : c.breaker.halfOpenProbes < c.breaker.halfOpenMaxProbes <;> simp [hlt]

end Circuit

/-! ## The calls so far -/

/-- A call that was made, with the circuit around it. -/
abbrev Made := Transition Circuit Call

/-- The failures recorded since the circuit last closed and since the last success. -/
def failuresInARow (past : List Made) : Nat :=
  (past.rtakeWhile fun t => t.before.state = .closed ∧ t.action.method ≠ .recordSuccess).countP
    (·.action.method = .recordFailure)

/-- When the circuit last opened. -/
def openingTime (past : List Made) : Option Time :=
  (past.reverse.find? fun t => t.before.state ≠ .open ∧ t.after.state = .open).map (·.action.now)

/-- The requests let through in the half-open episode the calls end in, the call
    that began it included. -/
def probesInEpisode (past : List Made) : Nat :=
  (past.rtakeWhile fun t => t.after.state = .halfOpen).countP fun t => t.before.admits t.action

/-- Outside the closed state there are no failures to count. -/
theorem failuresInARow_concat_reset (past : List Made) (t : Made)
    (h : t.before.state ≠ .closed ∨ t.action.method = .recordSuccess) :
    failuresInARow (past ++ [t]) = 0 := by
  unfold failuresInARow
  rw [List.rtakeWhile_concat_neg]
  · rfl
  · simp only [decide_eq_true_eq]
    tauto

/-- A call on a closed circuit that is no success adds itself if it is a failure. -/
theorem failuresInARow_concat (past : List Made) (t : Made) (hs : t.before.state = .closed)
    (hm : t.action.method ≠ .recordSuccess) :
    failuresInARow (past ++ [t]) =
      failuresInARow past + if t.action.method = .recordFailure then 1 else 0 := by
  unfold failuresInARow
  rw [List.rtakeWhile_concat_pos]
  · simp [List.countP_append, List.countP_cons]
  · simp [hs, hm]

theorem openingTime_concat (past : List Made) (t : Made) :
    openingTime (past ++ [t]) =
      if t.before.state ≠ .open ∧ t.after.state = .open then some t.action.now
      else openingTime past := by
  unfold openingTime
  rw [List.reverse_concat, List.find?_cons]
  by_cases h : t.before.state ≠ .open ∧ t.after.state = .open
  · rw [if_pos h, decide_eq_true h]
    rfl
  · rw [if_neg h, decide_eq_false h]

theorem probesInEpisode_concat (past : List Made) (t : Made) (h : t.after.state = .halfOpen) :
    probesInEpisode (past ++ [t]) =
      probesInEpisode past + if t.before.admits t.action then 1 else 0 := by
  unfold probesInEpisode
  rw [List.rtakeWhile_concat_pos]
  · simp [List.countP_append, List.countP_cons]
  · simp [h]

/-- Outside the half-open state nothing has been let through yet. -/
theorem probesInEpisode_concat_reset (past : List Made) (t : Made) (h : t.after.state ≠ .halfOpen) :
    probesInEpisode (past ++ [t]) = 0 := by
  unfold probesInEpisode
  rw [List.rtakeWhile_concat_neg]
  · rfl
  · simpa using h

/-! ## Counters in step with the calls -/

/-- The counters and the flag of a circuit say what the calls so far amount to. -/
structure Circuit.Follows (f : Int) (d : Duration) (m : Int) (c : Circuit) (past : List Made) :
    Prop where
  threshold : c.breaker.failureThreshold = f
  cooldown : c.breaker.openDuration = d
  maxProbes : c.breaker.halfOpenMaxProbes = m
  flag : c.flag = true ↔ c.state = .open
  failures : c.state = .closed →
    c.breaker.consecutiveFail = failuresInARow past ∧ c.breaker.consecutiveFail < f
  opening : c.state = .open →
    ∃ opened, c.breaker.openedAt = some opened ∧ openingTime past = some opened
  probes : c.state = .halfOpen →
    c.breaker.halfOpenProbes = probesInEpisode past ∧ c.breaker.halfOpenProbes ≤ m
  noProbes : c.state ≠ .halfOpen → probesInEpisode past = 0

namespace Circuit

section Follows

variable {f m : Int} {d : Duration}

theorem follows_new (hf : 1 ≤ f) : (new f d m).Follows f d m [] where
  threshold := rfl
  cooldown := rfl
  maxProbes := rfl
  flag := by simp [new, state, newBreaker]
  failures := fun _ => ⟨rfl, show (0 : Int) < f by omega⟩
  opening := fun h => by cases h
  probes := fun h => by cases h
  noProbes := fun _ => rfl

/-- A circuit that opens. -/
private theorem Follows.opens {c : Circuit} {past : List Made} (h : c.Follows f d m past) (k : Call)
    (hs : c.state ≠ .open) : (c.opened k.now).Follows f d m (past ++ [⟨c, k, c.opened k.now⟩]) where
  threshold := h.threshold
  cooldown := h.cooldown
  maxProbes := h.maxProbes
  flag := by simp [opened, state, Breaker.openCircuit]
  failures := fun h => by cases h
  opening := fun _ => ⟨k.now, rfl, by
    rw [openingTime_concat, if_pos ⟨hs, rfl⟩]⟩
  probes := fun h => by cases h
  noProbes := fun hne => probesInEpisode_concat_reset past _ hne

/-- One call on a closed circuit. -/
private theorem Follows.call_of_closed {c : Circuit} {past : List Made} (h : c.Follows f d m past)
    (hf : 1 ≤ f) (k : Call) (hs : c.state = .closed) :
    (c.call k).Follows f d m (past ++ [⟨c, k, c.call k⟩]) := by
  obtain ⟨hcount, hlt⟩ := h.failures hs
  have hflag : c.flag = true ↔ State.closed = .open := hs ▸ h.flag
  -- a closed circuit that stays closed with a count `n`
  have stays (n : Int) (hn : n < f)
      (hpast : n = failuresInARow (past ++ [⟨c, k, { c with
        breaker := { c.breaker with consecutiveFail := n } }⟩])) :
      Follows f d m { c with breaker := { c.breaker with consecutiveFail := n } }
        (past ++ [⟨c, k, { c with breaker := { c.breaker with consecutiveFail := n } }⟩]) := by
    have hs' : ({ c with breaker := { c.breaker with consecutiveFail := n } } : Circuit).state =
      .closed := hs
    exact {
      threshold := h.threshold
      cooldown := h.cooldown
      maxProbes := h.maxProbes
      flag := by rw [hs']; exact hflag
      failures := fun _ => ⟨hpast, hn⟩
      opening := fun ho => by rw [hs'] at ho; cases ho
      probes := fun ho => by rw [hs'] at ho; cases ho
      noProbes := fun hne => probesInEpisode_concat_reset past _ hne }
  have same (hm : k.method ≠ .recordSuccess) (hm' : k.method ≠ .recordFailure) :
      Follows f d m c (past ++ [⟨c, k, c⟩]) := by
    refine stays c.breaker.consecutiveFail hlt ?_
    rw [failuresInARow_concat past _ hs hm, if_neg hm', Nat.add_zero]
    exact hcount
  rw [call_closed c k hs]
  cases hm : k.method with
  | allow => exact same (by simp [hm]) (by simp [hm])
  | state => exact same (by simp [hm]) (by simp [hm])
  | recordSuccess =>
    refine stays 0 (by omega) ?_
    rw [failuresInARow_concat_reset past _ (Or.inr hm)]
    rfl
  | recordFailure =>
    dsimp only
    split
    · exact h.opens k (by simp [hs])
    · rename_i hge
      rw [h.threshold] at hge
      refine stays (c.breaker.consecutiveFail + 1) (by omega) ?_
      rw [failuresInARow_concat past _ hs (by simp [hm]), if_pos hm, hcount]
      rfl

/-- An open circuit that a call leaves alone. -/
private theorem Follows.waits {c : Circuit} {past : List Made} (h : c.Follows f d m past) (k : Call)
    (hs : c.state = .open) : c.Follows f d m (past ++ [⟨c, k, c⟩]) where
  threshold := h.threshold
  cooldown := h.cooldown
  maxProbes := h.maxProbes
  flag := h.flag
  failures := fun hc => by rw [hs] at hc; cases hc
  opening := fun _ => by
    rw [openingTime_concat, if_neg (fun hc => hc.1 hs)]
    exact h.opening hs
  probes := fun hc => by rw [hs] at hc; cases hc
  noProbes := fun hne => probesInEpisode_concat_reset past _ hne

/-- One call on an open circuit. -/
private theorem Follows.call_of_open {c : Circuit} {past : List Made} (h : c.Follows f d m past)
    (hm : 1 ≤ m) (k : Call) (hs : c.state = .open) :
    (c.call k).Follows f d m (past ++ [⟨c, k, c.call k⟩]) := by
  have hzero : probesInEpisode past = 0 := h.noProbes (by simp [hs])
  -- the episode begins with `n` requests let through
  have halves (n : Int) (hn : n ≤ m) (hadm : n = if c.admits k then 1 else 0) :
      Follows f d m ⟨{ c.breaker with state := .halfOpen, halfOpenProbes := n }, false⟩
        (past ++
          [⟨c, k, ⟨{ c.breaker with state := .halfOpen, halfOpenProbes := n }, false⟩⟩]) := {
    threshold := h.threshold
    cooldown := h.cooldown
    maxProbes := h.maxProbes
    flag := by simp [state]
    failures := fun hc => by cases hc
    opening := fun hc => by cases hc
    probes := fun _ => by
      refine ⟨?_, hn⟩
      rw [probesInEpisode_concat past _ rfl, hzero, Nat.zero_add]
      show n = _
      rw [hadm]
      split <;> rfl
    noProbes := fun hne => absurd rfl hne }
  rw [call_open c k hs]
  split
  · rename_i hcool
    have hadm : c.admits k := (admits_iff c k).mpr ⟨hcool.1, by rw [hs]; exact hcool.2⟩
    exact halves 1 hm (by rw [if_pos hadm])
  · split
    · rename_i hcool
      have hadm : ¬ c.admits k := fun hc => by
        have hallow := ((admits_iff c k).mp hc).1
        rw [hcool.1] at hallow
        cases hallow
      exact halves 0 (by omega) (by rw [if_neg hadm])
    · exact h.waits k hs

/-- One call on a half-open circuit. -/
private theorem Follows.call_of_halfOpen {c : Circuit} {past : List Made}
    (h : c.Follows f d m past) (hf : 1 ≤ f) (k : Call) (hs : c.state = .halfOpen) :
    (c.call k).Follows f d m (past ++ [⟨c, k, c.call k⟩]) := by
  obtain ⟨hcount, hle⟩ := h.probes hs
  have hflag : c.flag = true ↔ State.halfOpen = .open := hs ▸ h.flag
  -- the episode goes on with a count `n`
  have stays (n : Int) (hn : n ≤ m)
      (hadm : n = c.breaker.halfOpenProbes + if c.admits k then 1 else 0) :
      Follows f d m { c with breaker := { c.breaker with halfOpenProbes := n } }
        (past ++ [⟨c, k, { c with breaker := { c.breaker with halfOpenProbes := n } }⟩]) := by
    have hs' : ({ c with breaker := { c.breaker with halfOpenProbes := n } } : Circuit).state =
      .halfOpen := hs
    exact {
      threshold := h.threshold
      cooldown := h.cooldown
      maxProbes := h.maxProbes
      flag := by rw [hs']; exact hflag
      failures := fun hc => by rw [hs'] at hc; cases hc
      opening := fun hc => by rw [hs'] at hc; cases hc
      probes := fun _ => by
        refine ⟨?_, hn⟩
        rw [probesInEpisode_concat past _ hs']
        show n = _
        rw [hadm, hcount]
        split <;> simp
      noProbes := fun hne => absurd hs' hne }
  have same (hadm : ¬ c.admits k) : Follows f d m c (past ++ [⟨c, k, c⟩]) :=
    stays c.breaker.halfOpenProbes hle (by rw [if_neg hadm, Int.add_zero])
  rw [call_halfOpen c k hs]
  cases hm : k.method with
  | allow =>
    dsimp only
    split
    · rename_i hlt
      have hadm : c.admits k := (admits_iff c k).mpr ⟨hm, by rw [hs]; exact hlt⟩
      rw [h.maxProbes] at hlt
      exact stays (c.breaker.halfOpenProbes + 1) (by omega) (by rw [if_pos hadm])
    · rename_i hge
      refine same fun hc => hge ?_
      have hlt := ((admits_iff c k).mp hc).2
      rwa [hs] at hlt
  | state => exact same fun hc => by simp [admits, hm] at hc
  | recordSuccess =>
    exact {
      threshold := h.threshold
      cooldown := h.cooldown
      maxProbes := h.maxProbes
      flag := by simp [state]
      failures := fun _ => by
        rw [failuresInARow_concat_reset past _ (Or.inr hm)]
        exact ⟨rfl, show (0 : Int) < f by omega⟩
      opening := fun hc => by cases hc
      probes := fun hc => by cases hc
      noProbes := fun hne => probesInEpisode_concat_reset past _ hne }
  | recordFailure => exact h.opens k (by simp [hs])

/-- One call keeps the counters in step with the calls so far. -/
theorem Follows.call {c : Circuit} {past : List Made} (h : c.Follows f d m past) (hf : 1 ≤ f)
    (hm : 1 ≤ m) (k : Call) : (c.call k).Follows f d m (past ++ [⟨c, k, c.call k⟩]) := by
  cases hs : c.state with
  | closed => exact h.call_of_closed hf k hs
  | «open» => exact h.call_of_open hm k hs
  | halfOpen => exact h.call_of_halfOpen hf k hs

end Follows

end Circuit

/-! ## Transitions -/

/-- What a call may do after the calls `past`. -/
structure Made.Lawful (f : Int) (d : Duration) (m : Int) (past : List Made) (t : Made) : Prop where
  /-- The flag is up exactly when the circuit is open. -/
  flag : (t.before.flag = true ↔ t.before.state = .open) ∧
    (t.after.flag = true ↔ t.after.state = .open)
  /-- A closed circuit opens exactly at the `f`-th failure in a row. -/
  opens : t.before.state = .closed →
    (t.after.state = .open ↔
      t.action.method = .recordFailure ∧ ((failuresInARow past + 1 : Nat) : Int) = f)
  /-- An open circuit was opened at a known time, and lets nothing through and
      stays as it is until the cool-down from then on is over. -/
  waits : t.before.state = .open →
    ∃ opened, t.before.breaker.openedAt = some opened ∧ openingTime past = some opened ∧
      (t.action.method = .allow → t.action.now < opened + d →
        t.before.admits t.action = false ∧ t.after = t.before)
  /-- At most `m` requests are let through in a half-open episode. -/
  probes : t.after.state = .halfOpen → (probesInEpisode (past ++ [t]) : Int) ≤ m
  /-- Only a success reported to a half-open circuit closes it. -/
  closes : t.before.state ≠ .closed → t.after.state = .closed →
    t.before.state = .halfOpen ∧ t.action.method = .recordSuccess

namespace Circuit

section Lawful

variable {f m : Int} {d : Duration} {c : Circuit} {past : List Made}

private theorem Follows.opens_iff (h : c.Follows f d m past) (k : Call) (hs : c.state = .closed) :
    (c.call k).state = .open ↔
      k.method = .recordFailure ∧ ((failuresInARow past + 1 : Nat) : Int) = f := by
  obtain ⟨hcount, hlt⟩ := h.failures hs
  have hclosed : c.breaker.state = .closed := hs
  rw [call_closed c k hs]
  cases hm : k.method with
  | allow => simp [hs]
  | state => simp [hs]
  | recordSuccess => simp [state, hclosed]
  | recordFailure =>
    rw [h.threshold]
    dsimp only
    split
    · rename_i hge
      have heq : ((failuresInARow past + 1 : Nat) : Int) = f := by omega
      simp [heq, opened, state, Breaker.openCircuit]
    · rename_i hge
      have hne : ((failuresInARow past + 1 : Nat) : Int) ≠ f := by omega
      simp only [state, hclosed]
      exact iff_of_false (by simp) fun hc => hne hc.2

private theorem Follows.waits_until (h : c.Follows f d m past) (k : Call) (hs : c.state = .open) :
    ∃ opened, c.breaker.openedAt = some opened ∧ openingTime past = some opened ∧
      (k.method = .allow → k.now < opened + d → c.admits k = false ∧ c.call k = c) := by
  obtain ⟨opened, hat, htime⟩ := h.opening hs
  refine ⟨opened, hat, htime, fun hm hnow => ?_⟩
  have hcool : ¬ c.breaker.cooledDown k.now := by
    simp only [Breaker.cooledDown, hat, h.cooldown, decide_eq_true_eq]
    exact Int.not_le.mpr (Int.sub_left_lt_of_lt_add hnow)
  constructor
  · rw [← Bool.not_eq_true, admits_iff, hs]
    exact fun hc => hcool hc.2
  · rw [call_open c k hs, if_neg (fun hc => hcool hc.2), if_neg (fun hc => hcool hc.2)]

private theorem closes_only (c : Circuit) (k : Call) (hs : c.state ≠ .closed)
    (hclosed : (c.call k).state = .closed) :
    c.state = .halfOpen ∧ k.method = .recordSuccess := by
  cases hst : c.state with
  | closed => exact absurd hst hs
  | «open» =>
    rw [call_open c k hst] at hclosed
    split at hclosed
    · cases hclosed
    · split at hclosed
      · cases hclosed
      · exact absurd hclosed hs
  | halfOpen =>
    refine ⟨rfl, ?_⟩
    have hhalf : c.breaker.state = .halfOpen := hst
    rw [call_halfOpen c k hst] at hclosed
    cases hm : k.method with
    | recordSuccess => rfl
    | allow =>
      rw [hm] at hclosed
      dsimp only at hclosed
      split at hclosed
      · exact absurd hclosed (by simp [state, hhalf])
      · exact absurd hclosed hs
    | state =>
      rw [hm] at hclosed
      exact absurd hclosed hs
    | recordFailure =>
      rw [hm] at hclosed
      cases hclosed

/-- A call on a circuit in step with its past is lawful. -/
theorem Follows.lawful (h : c.Follows f d m past) (hf : 1 ≤ f) (hm : 1 ≤ m) (k : Call) :
    Made.Lawful f d m past ⟨c, k, c.call k⟩ where
  flag := ⟨h.flag, (h.call hf hm k).flag⟩
  opens := h.opens_iff k
  waits := h.waits_until k
  probes := fun hs => by
    obtain ⟨hcount, hle⟩ := (h.call hf hm k).probes hs
    exact hcount ▸ hle
  closes := closes_only c k

end Lawful

end Circuit

/-- Every call of every run on a new breaker is lawful. -/
theorem circuit_transitions (f : Int) (d : Duration) (m : Int) (hf : 1 ≤ f) (hm : 1 ≤ m)
    (calls : List Call) (past : List Made) (t : Made) (rest : List Made)
    (hrun : Transition.trace Circuit.call (Circuit.new f d m) calls = past ++ t :: rest) :
    t.Lawful f d m past := by
  obtain ⟨hfollows, -, hafter⟩ := Transition.trace_cut Circuit.call (fun _ _ => True)
    (Circuit.Follows f d m) (fun _ _ k _ h => h.call hf hm k) _ [] (Circuit.follows_new hf) calls
    (List.along_trivial _ _ _) past t rest hrun
  obtain ⟨before, action, after⟩ := t
  dsimp only at hafter hfollows
  rw [hafter]
  exact hfollows.lawful hf hm action

/-- Two failures open the circuit; the cool-down over, a second `Allow` of the
    episode is refused. -/
theorem circuit_transitions_sample :
    Made.Lawful 2 10 1
      ((Transition.trace Circuit.call (Circuit.new 2 10 1)
        [⟨.recordFailure, 0⟩, ⟨.recordFailure, 1⟩, ⟨.allow, 5⟩, ⟨.allow, 11⟩, ⟨.allow, 12⟩]).take 4)
      ⟨⟨⟨.halfOpen, 0, 2, 10, 1, some 1, 1⟩, false⟩, ⟨.allow, 12⟩,
        ⟨⟨.halfOpen, 0, 2, 10, 1, some 1, 1⟩, false⟩⟩ :=
  circuit_transitions 2 10 1 (by decide) (by decide)
    [⟨.recordFailure, 0⟩, ⟨.recordFailure, 1⟩, ⟨.allow, 5⟩, ⟨.allow, 11⟩, ⟨.allow, 12⟩] _ _ []
    (by decide +kernel)

end HootLb.Circuitbreaker
