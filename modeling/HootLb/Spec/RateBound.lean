import HootLb.ForStd.List
import HootLb.ForStd.TokenBucket
import HootLb.Native.RateLimit
import Mathlib.Tactic.NormNum
import Mathlib.Tactic.Positivity

/-!
# How many requests a limiter grants

For a finite rate the limiter's bucket is a token bucket over the rationals, with
the clock in seconds. Its bound holds as long as the calls of a client take the
lock in the order of their clock readings. A call that read an early clock and
takes the lock late sets `lastTime` back, and the time until the next reading
flows in a second time.

## Key results

- `Bucket.allow_fin`: `bucket.allow` is a call of a token bucket
- `rate_bound_of_ordered`: the bound for runs in which no call is overtaken
-/

namespace HootLb.Ratelimit

/-! ## Buckets of clients -/

@[simp] theorem allow_rate (l : Limiter) (clientIP : String) (now : Int) :
    (l.allow clientIP now).2.rate = l.rate := rfl

@[simp] theorem allow_capacity (l : Limiter) (clientIP : String) (now : Int) :
    (l.allow clientIP now).2.capacity = l.capacity := rfl

@[simp] theorem allow_idleTTL (l : Limiter) (clientIP : String) (now : Int) :
    (l.allow clientIP now).2.idleTTL = l.idleTTL := rfl

/-- The tokens `bucket.allow` finds after its refill. -/
def Bucket.level (rate capacity : Float64) (b : Bucket) (now : Int) : Float64 :=
  let elapsed := seconds (now - b.lastTime)
  if elapsed > 0 then
    let tokens := b.tokens.add (rate.mulFin elapsed)
    if capacity.lt tokens then capacity else tokens
  else b.tokens

/-- What `bucket.allow` does with the tokens it finds. -/
def take (level : Float64) (now : Int) : Bool × Bucket :=
  if (Float64.fin 1).le level then (true, { tokens := level.add (.fin (-1)), lastTime := now })
  else (false, { tokens := level, lastTime := now })

theorem Bucket.allow_eq (rate capacity : Float64) (b : Bucket) (now : Int) :
    b.allow rate capacity now = take (b.level rate capacity now) now := rfl

@[simp] theorem take_lastTime (level : Float64) (now : Int) :
    (take level now).2.lastTime = now := by
  unfold take
  split <;> rfl

/-- The bucket an `Allow` call works on. -/
def Limiter.bucketAt (l : Limiter) (clientIP : String) (now : Int) : Bucket :=
  (l.bucket? clientIP).getD { tokens := l.capacity, lastTime := now }

/-- The tokens an `Allow` call finds. -/
def Limiter.level (l : Limiter) (clientIP : String) (now : Int) : Float64 :=
  (l.bucketAt clientIP now).level l.rate l.capacity now

theorem allow_result (l : Limiter) (clientIP : String) (now : Int) :
    (l.allow clientIP now).1 = (take (l.level clientIP now) now).1 := rfl

theorem bucket?_allow_self (l : Limiter) (clientIP : String) (now : Int) :
    (l.allow clientIP now).2.bucket? clientIP = some (take (l.level clientIP now) now).2 := by
  simp only [Limiter.allow, Limiter.bucket?, Function.update_self, AList.lookup_insert]
  rfl

/-- Other clients are left alone, also those of the same shard. -/
theorem bucket?_allow_of_ne (l : Limiter) (clientIP other : String) (now : Int)
    (h : other ≠ clientIP) : (l.allow clientIP now).2.bucket? other = l.bucket? other := by
  simp only [Limiter.allow, Limiter.bucket?]
  by_cases hshard : shardOf other = shardOf clientIP
  · rw [hshard, Function.update_self, AList.lookup_insert_ne h]
  · rw [Function.update_of_ne hshard]

/-! ## The bucket over the rationals -/

theorem seconds_le_seconds (a b : Int) : seconds a ≤ seconds b ↔ a ≤ b := by
  unfold seconds
  rw [div_le_div_iff_of_pos_right (by norm_num)]
  exact Int.cast_le

theorem seconds_sub (a b : Int) : seconds (a - b) = seconds a - seconds b := by
  unfold seconds
  push_cast
  ring

/-- With finite numbers, the tokens found are those of a token bucket. -/
theorem Bucket.level_fin (rate capacity x : ℚ) (last now : Int) :
    Bucket.level (.fin rate) (.fin capacity) { tokens := .fin x, lastTime := last } now =
      .fin ((TokenBucket.Bucket.mk x (seconds last)).refilled rate capacity (seconds now)) := by
  unfold Bucket.level TokenBucket.Bucket.refilled
  simp only [seconds_sub, gt_iff_lt, sub_pos, Float64.add, Float64.mulFin, Float64.lt,
    decide_eq_true_eq]
  split
  · split
    · rename_i hover
      rw [min_eq_left (le_of_lt hover)]
    · rename_i hunder
      rw [min_eq_right (not_lt.mp hunder)]
  · rfl

/-- With finite numbers, `bucket.allow` is a call of a token bucket. -/
theorem Bucket.allow_fin (rate capacity x : ℚ) (last now : Int) :
    Bucket.allow (.fin rate) (.fin capacity) { tokens := .fin x, lastTime := last } now =
      (((TokenBucket.Bucket.mk x (seconds last)).call rate capacity (seconds now)).1,
        { tokens := .fin
            ((TokenBucket.Bucket.mk x (seconds last)).call rate capacity (seconds now)).2.tokens
          lastTime := now }) := by
  rw [Bucket.allow_eq, Bucket.level_fin]
  unfold take TokenBucket.Bucket.call
  simp only [Float64.le, decide_eq_true_eq]
  split
  · simp only [Float64.add]
    rw [← sub_eq_add_neg]
  · rfl

/-! ## Runs of concurrent calls -/

/-- How many answered calls of a client were granted with a reading in
    `[start, stop]`. -/
def granted (answered : List (String × Int × Bool)) (clientIP : String) (start stop : Int) : Nat :=
  answered.countP fun e => e.1 = clientIP ∧ e.2.2 ∧ start ≤ e.2.1 ∧ e.2.1 ≤ stop

/-- A call of the client that takes the lock read a clock not before the last
    reading its bucket has seen. -/
def InOrder (clientIP : String) (s : Admission) : AdmissionOp → Prop
  | .enter k => ∀ call ∈ s.waiting[k]?, call.1 = clientIP →
      ∀ b ∈ s.limiter.bucket? clientIP, b.lastTime ≤ call.2
  | _ => True

instance (clientIP : String) (s : Admission) :
    (op : AdmissionOp) → Decidable (InOrder clientIP s op)
  | .tick _ => instDecidableTrue
  | .arrive _ => instDecidableTrue
  | .enter k => inferInstanceAs (Decidable (∀ call ∈ s.waiting[k]?, call.1 = clientIP →
      ∀ b ∈ s.limiter.bucket? clientIP, b.lastTime ≤ call.2))

/-- The calls of a client, with the clock in seconds. -/
def historyOf (answered : List (String × Int × Bool)) (clientIP : String) : List (ℚ × Bool) :=
  (answered.filter fun e => e.1 = clientIP).map fun e => (seconds e.2.1, e.2.2)

theorem granted_eq_grants (answered : List (String × Int × Bool)) (clientIP : String)
    (start stop : Int) :
    granted answered clientIP start stop =
      TokenBucket.grants (historyOf answered clientIP) (seconds start) (seconds stop) := by
  unfold granted TokenBucket.grants historyOf
  rw [List.countP_map, List.countP_filter]
  apply List.countP_congr
  intro e _
  simp only [Function.comp_apply, Bool.and_eq_true, decide_eq_true_eq, seconds_le_seconds]
  constructor
  · intro h
    exact ⟨⟨⟨h.2.1, h.2.2.1⟩, h.2.2.2⟩, h.1⟩
  · intro h
    exact ⟨h.2, h.1.1.1, h.1.1.2, h.1.2⟩

/-- What is known of a client's bucket: it is bounded by its history, or it was
    never called. -/
structure ClientBounded (rate capacity : ℚ) (clientIP : String) (s : Admission) : Prop where
  rate_eq : s.limiter.rate = .fin rate
  capacity_eq : s.limiter.capacity = .fin capacity
  absent : s.limiter.bucket? clientIP = none → historyOf s.answered clientIP = []
  present : ∀ b, s.limiter.bucket? clientIP = some b → ∃ x, b.tokens = .fin x ∧
    TokenBucket.Bounded rate capacity { tokens := x, last := seconds b.lastTime }
      (historyOf s.answered clientIP)

theorem historyOf_append (answered : List (String × Int × Bool)) (clientIP caller : String)
    (now : Int) (result : Bool) :
    historyOf (answered ++ [(caller, now, result)]) clientIP =
      historyOf answered clientIP ++
        if caller = clientIP then [(seconds now, result)] else [] := by
  unfold historyOf
  rw [List.filter_append, List.map_append]
  by_cases h : caller = clientIP <;> simp [h]

/-- One more answered call. -/
theorem ClientBounded.enter {rate capacity : ℚ} {clientIP : String} {s : Admission}
    (h : ClientBounded rate capacity clientIP s) (hrate : 0 ≤ rate) (hcap : 0 ≤ capacity)
    (caller : String) (now : Int) (waiting : List (String × Int))
    (horder : caller = clientIP → ∀ b, s.limiter.bucket? clientIP = some b → b.lastTime ≤ now) :
    ClientBounded rate capacity clientIP
      { s with
        limiter := (s.limiter.allow caller now).2
        waiting
        answered := s.answered ++ [(caller, now, (s.limiter.allow caller now).1)] } := by
  by_cases hcaller : caller = clientIP
  · subst hcaller
    -- the bucket the call works on is bounded by the history so far, also when it is new
    have hbefore : ∃ x last,
        s.limiter.bucketAt caller now = { tokens := .fin x, lastTime := last } ∧
        last ≤ now ∧ TokenBucket.Bounded rate capacity { tokens := x, last := seconds last }
          (historyOf s.answered caller) := by
      unfold Limiter.bucketAt
      cases hb : s.limiter.bucket? caller with
      | none =>
        refine ⟨capacity, now, ?_, le_refl _, ?_⟩
        · rw [Option.getD_none, h.capacity_eq]
        · rw [h.absent hb]
          exact .full _ hrate hcap
      | some b =>
        obtain ⟨x, hx, hbounded⟩ := h.present b hb
        refine ⟨x, b.lastTime, ?_, horder rfl b hb, hbounded⟩
        rw [Option.getD_some, ← hx]
    obtain ⟨x, last, hat, hle, hbounded⟩ := hbefore
    have hcall := hbounded.call (seconds now) hrate ((seconds_le_seconds last now).mpr hle)
    have hresult := allow_result s.limiter caller now
    have hself := bucket?_allow_self s.limiter caller now
    rw [Limiter.level, ← Bucket.allow_eq, hat, h.rate_eq, h.capacity_eq, Bucket.allow_fin]
      at hresult hself
    refine ⟨h.rate_eq, h.capacity_eq, ?_, ?_⟩
    · intro hnone
      dsimp only at hnone
      rw [hself] at hnone
      cases hnone
    · intro b hb
      dsimp only at hb ⊢
      rw [hself] at hb
      cases hb
      refine ⟨_, rfl, ?_⟩
      rw [historyOf_append, if_pos rfl, hresult]
      have hlast := TokenBucket.call_last rate capacity
        { tokens := x, last := seconds last } (seconds now)
      generalize TokenBucket.Bucket.call rate capacity { tokens := x, last := seconds last }
        (seconds now) = r at hcall hlast ⊢
      obtain ⟨result, tokens, last'⟩ := r
      dsimp only at hcall hlast ⊢
      subst hlast
      exact hcall
  · have hother := bucket?_allow_of_ne s.limiter caller clientIP now (Ne.symm hcaller)
    have hhistory : historyOf (s.answered ++ [(caller, now, (s.limiter.allow caller now).1)])
        clientIP = historyOf s.answered clientIP := by
      rw [historyOf_append, if_neg hcaller, List.append_nil]
    refine ⟨h.rate_eq, h.capacity_eq, ?_, ?_⟩
    · intro hnone
      dsimp only at hnone ⊢
      rw [hother] at hnone
      rw [hhistory]
      exact h.absent hnone
    · intro b hb
      dsimp only at hb ⊢
      rw [hother] at hb
      rw [hhistory]
      exact h.present b hb

theorem ClientBounded.step {rate capacity : ℚ} {clientIP : String} (hrate : 0 ≤ rate)
    (hcap : 0 ≤ capacity) (s : Admission) (op : AdmissionOp)
    (h : ClientBounded rate capacity clientIP s) (horder : InOrder clientIP s op) :
    ClientBounded rate capacity clientIP (s.step op) := by
  cases op with
  | tick d => exact ⟨h.rate_eq, h.capacity_eq, h.absent, h.present⟩
  | arrive caller => exact ⟨h.rate_eq, h.capacity_eq, h.absent, h.present⟩
  | enter k =>
    simp only [Admission.step]
    cases hk : s.waiting[k]? with
    | none => exact h
    | some call =>
      obtain ⟨caller, now⟩ := call
      apply h.enter hrate hcap
      intro hcaller b hb
      exact horder (caller, now) hk hcaller b hb

/-- With idle eviction off, a positive rate and a burst of at least one: however
    many calls are in flight, as long as the calls of a client take the lock in
    the order of their clock readings, the client is granted at most the burst
    plus the rate times the length of any window of readings. -/
theorem rate_bound_of_ordered (rate : ℚ) (hrate : 0 < rate) (burst : Int) (hburst : 1 ≤ burst)
    (clock : Int) (clientIP : String) (ops : List AdmissionOp)
    (horder : ops.Along Admission.step (InOrder clientIP) (newAdmission (.fin rate) burst clock))
    (start stop : Int) (hwindow : start ≤ stop) :
    (granted (ops.foldl Admission.step (newAdmission (.fin rate) burst clock)).answered clientIP
        start stop : ℚ) ≤ burst + rate * seconds (stop - start) := by
  have hcap : (0 : ℚ) ≤ burst := by
    have hnonneg : 0 ≤ burst := by omega
    exact_mod_cast hnonneg
  have hinit : ClientBounded rate burst clientIP (newAdmission (.fin rate) burst clock) := by
    refine ⟨rfl, rfl, fun _ => rfl, fun b hb => ?_⟩
    cases hb
  have hend := List.foldl_along Admission.step (InOrder clientIP)
    (ClientBounded rate burst clientIP) (ClientBounded.step (le_of_lt hrate) hcap) _ hinit ops
    horder
  generalize ops.foldl Admission.step (newAdmission (.fin rate) burst clock) = s at hend
  rw [granted_eq_grants, seconds_sub]
  cases hb : s.limiter.bucket? clientIP with
  | none =>
    have hflow : 0 ≤ rate * (seconds stop - seconds start) := by
      apply mul_nonneg (le_of_lt hrate)
      exact sub_nonneg.mpr ((seconds_le_seconds start stop).mpr hwindow)
    rw [hend.absent hb]
    simp only [TokenBucket.grants, List.countP_nil, Nat.cast_zero]
    linarith
  | some b =>
    obtain ⟨x, -, hbounded⟩ := hend.present b hb
    exact hbounded.window _ _ ((seconds_le_seconds start stop).mpr hwindow)

/-! ## A call that is overtaken -/

/-- The third call reads the clock at zero and takes the lock after the second,
    which read it a second later. -/
def overtaken : List AdmissionOp :=
  [.arrive "10.0.0.9", .enter 0, .arrive "10.0.0.9", .tick 1000000000, .arrive "10.0.0.9",
    .enter 1, .enter 0, .arrive "10.0.0.9", .enter 0]

/-- At one request a second and a burst of one, two requests are granted at the
    same instant. -/
theorem overtaken_call_refills_twice :
    ¬ (granted (overtaken.foldl Admission.step (newAdmission (.fin 1) 1 0)).answered "10.0.0.9"
        1000000000 1000000000 : ℚ) ≤ (1 : Int) + 1 * seconds (1000000000 - 1000000000) := by
  decide +kernel

/-- The same calls in the order of their readings. -/
def inTurn : List AdmissionOp :=
  [.arrive "10.0.0.9", .enter 0, .arrive "10.0.0.9", .enter 0, .tick 1000000000,
    .arrive "10.0.0.9", .enter 0, .arrive "10.0.0.9", .enter 0]

theorem rate_bound_in_turn :
    inTurn.Along Admission.step (InOrder "10.0.0.9") (newAdmission (.fin 1) 1 0) ∧
      (granted (inTurn.foldl Admission.step (newAdmission (.fin 1) 1 0)).answered "10.0.0.9"
        1000000000 1000000000 : ℚ) ≤ (1 : Int) + 1 * seconds (1000000000 - 1000000000) := by
  have horder : inTurn.Along Admission.step (InOrder "10.0.0.9") (newAdmission (.fin 1) 1 0) := by
    decide +kernel
  exact ⟨horder, rate_bound_of_ordered 1 (by norm_num) 1 (by norm_num) 0 "10.0.0.9" inTurn horder
    1000000000 1000000000 (le_refl _)⟩

end HootLb.Ratelimit
