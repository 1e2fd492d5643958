import HootLb.Spec.BreakerMachine

/-!
# Verdicts on a half-open circuit

Requests ask `Allow` for admission and report later, in any order and after any
delay. A report carries no identity: the breaker takes the next one that arrives
while it is half-open as the outcome of its probe. Here every admitted request is
remembered with the half-open episode it was let through in, so that a verdict can
be traced to its request.

## Key results

- `Traffic.verdict_iff`: one step, verdict against the origin of the report
- `verdicts_from_probes_iff`: whole runs
-/

namespace HootLb.Circuitbreaker

/-- A request that `Allow` let through. -/
structure Admitted where
  /-- The half-open episode it was let through in; `none` if the circuit was closed. -/
  episode : Option Nat
  reported : Bool
  deriving DecidableEq

/-- A circuit under traffic. -/
structure Traffic where
  circuit : Circuit
  /-- The half-open episodes begun so far. -/
  episodes : Nat
  /-- The requests let through so far, in order. -/
  requests : List Admitted
  deriving DecidableEq

/-- What happens around a breaker. -/
inductive TrafficEvent where
  /-- A request asks `Allow`. -/
  | arrive (now : Time)
  /-- The request of a number reports its outcome. -/
  | report (id : Nat) (ok : Bool) (now : Time)
  /-- Somebody reads `State`. -/
  | inspect (now : Time)
  deriving DecidableEq

namespace Traffic

/-- No traffic yet. -/
def new (failureThreshold : Int) (openDuration : Duration) (halfOpenMaxProbes : Int) : Traffic :=
  { circuit := Circuit.new failureThreshold openDuration halfOpenMaxProbes
    episodes := 0, requests := [] }

/-- The request of a number, if it has been let through and has not reported. -/
def inFlight (s : Traffic) (id : Nat) : Option Admitted :=
  s.requests[id]?.filter fun r => !r.reported

/-- Make a call on the breaker; half-open episodes are counted as they begin. -/
def call (s : Traffic) (k : Call) : Traffic :=
  { s with
    circuit := s.circuit.call k
    episodes :=
      if s.circuit.state ≠ .halfOpen ∧ (s.circuit.call k).state = .halfOpen then s.episodes + 1
      else s.episodes }

/-- One event. -/
def step (s : Traffic) : TrafficEvent → Traffic
  | .arrive now =>
    let next := s.call ⟨.allow, now⟩
    if s.circuit.admits ⟨.allow, now⟩ then
      let episode := if next.circuit.state = .halfOpen then some next.episodes else none
      { next with requests := s.requests ++ [{ episode, reported := false }] }
    else next
  | .report id ok now =>
    match s.inFlight id with
    -- a request that was not let through, or has reported, has nothing to say
    | none => s
    | some _ =>
      { s.call ⟨if ok then .recordSuccess else .recordFailure, now⟩ with
        requests := s.requests.modify id fun r => { r with reported := true } }
  | .inspect now => s.call ⟨.state, now⟩

/-- A step out of half-open is the report of a request let through in that episode. -/
def VerdictFromProbe (s : Traffic) (e : TrafficEvent) : Prop :=
  s.circuit.state = .halfOpen → (s.step e).circuit.state ≠ .halfOpen →
    match e with
    | .report id _ _ => ∃ r, s.inFlight id = some r ∧ r.episode = some s.episodes
    | _ => False

/-- A report that reaches a half-open circuit comes from a request let through in
    that episode. -/
def ReportsFromEpisode (s : Traffic) (e : TrafficEvent) : Prop :=
  match e with
  | .report id _ _ =>
    s.circuit.state = .halfOpen → ∀ r ∈ s.inFlight id, r.episode = some s.episodes
  | _ => True

/-- A half-open circuit is left by a report and by nothing else. -/
theorem call_leaves_halfOpen_iff (c : Circuit) (k : Call) (hs : c.state = .halfOpen) :
    (c.call k).state ≠ .halfOpen ↔ k.method = .recordSuccess ∨ k.method = .recordFailure := by
  have hhalf : c.breaker.state = .halfOpen := hs
  rw [Circuit.call_halfOpen c k hs]
  cases hm : k.method with
  | allow =>
    dsimp only
    split <;> simp [Circuit.state, hhalf]
  | state => simp [hs]
  | recordSuccess => simp [Circuit.state]
  | recordFailure => simp [Circuit.state, Circuit.opened, Breaker.openCircuit]

/-- One step: the verdict comes from a probe exactly when the report does. -/
theorem verdict_iff (s : Traffic) (e : TrafficEvent) :
    s.VerdictFromProbe e ↔ s.ReportsFromEpisode e := by
  cases e with
  | arrive now =>
    refine iff_of_true (fun hs hleft => ?_) trivial
    have hkeep : (s.circuit.call ⟨.allow, now⟩).state ≠ .halfOpen := by
      simp only [step] at hleft
      split at hleft <;> exact hleft
    exact absurd ((call_leaves_halfOpen_iff s.circuit _ hs).mp hkeep) (by simp)
  | inspect now =>
    refine iff_of_true (fun hs hleft => ?_) trivial
    exact absurd ((call_leaves_halfOpen_iff s.circuit ⟨.state, now⟩ hs).mp hleft) (by simp)
  | report id ok now =>
    unfold VerdictFromProbe ReportsFromEpisode
    refine imp_congr_right fun hs => ?_
    have hleaves : (s.circuit.call ⟨if ok then .recordSuccess else .recordFailure, now⟩).state ≠
        .halfOpen := (call_leaves_halfOpen_iff s.circuit _ hs).mpr (by cases ok <;> simp)
    cases hr : s.inFlight id with
    | none => simp [step, hr, hs]
    | some r =>
      have hstep : (s.step (.report id ok now)).circuit.state ≠ .halfOpen := by
        simp only [step, hr]
        exact hleaves
      simp [hr, hstep]

end Traffic

/-- Along a run every step out of half-open comes from a request let through in
    that episode exactly when every report that reaches a half-open circuit does. -/
theorem verdicts_from_probes_iff (f : Int) (d : Duration) (m : Int) (run : List TrafficEvent) :
    List.Along Traffic.step Traffic.VerdictFromProbe (Traffic.new f d m) run ↔
      List.Along Traffic.step Traffic.ReportsFromEpisode (Traffic.new f d m) run :=
  List.along_congr Traffic.step _ _ (fun _ => True) (fun _ _ _ => trivial)
    (fun s e _ => s.verdict_iff e) _ trivial run

/-- Two requests are let through, the second fails and opens the circuit, and after
    the cool-down the success of the first closes it while the probe is out. -/
theorem late_report_closes_circuit :
    ¬ List.Along Traffic.step Traffic.VerdictFromProbe (Traffic.new 1 10 1)
      [.arrive 0, .arrive 0, .report 1 false 1, .arrive 20, .report 0 true 21] := by
  intro hrun
  have hlast : Traffic.VerdictFromProbe
      ⟨⟨⟨.halfOpen, 0, 1, 10, 1, some 1, 1⟩, false⟩, 1, [⟨none, false⟩, ⟨none, true⟩,
        ⟨some 1, false⟩]⟩ (.report 0 true 21) := hrun.2.2.2.2.1
  obtain ⟨r, hr, hepisode⟩ := hlast rfl (by decide)
  obtain rfl : (⟨none, false⟩ : Admitted) = r := Option.some.inj hr
  cases hepisode

end HootLb.Circuitbreaker
