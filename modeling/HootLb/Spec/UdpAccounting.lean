import HootLb.ForStd.List
import HootLb.Native.Udp
import HootLb.Spec.BalancerSound

/-!
# UDP sessions and connection counts

A session is acquired on the balancer its backend was picked on. `evictExpired`
and `Close` release the sessions they remove on the balancer that `poolGetter`
returns to them. The counts of every balancer are those of the table as long as
these are the same; a session released elsewhere stays on its own balancer's
books for good, because a release never takes a count below zero anywhere else.

## Key results

- `remove_accounted_iff`: one sweep
- `sessions_accounted_iff`: runs with replacements of the pool state
-/

namespace HootLb.L4

open Balancer

namespace UdpServer

variable {s : UdpServer}

/-! ## Where a session comes from -/

/-- The balancer a session object was picked on and its backend's address. -/
def origin (s : UdpServer) (i : Nat) : Option (Nat × String) :=
  (s.objects[i]?).map fun sess => (sess.pickedOn, s.addressOf sess)

/-- How many sessions of the table were picked on a balancer, for an address. -/
def held (s : UdpServer) (lb : Nat) (addr : String) : Nat :=
  s.sessions.entries.countP fun e => s.origin e.2 = some (lb, addr)

/-- Every balancer counts the sessions of the table that were picked on it. -/
def Accounted (s : UdpServer) : Prop :=
  ∀ lb balancer, s.balancers[lb]? = some balancer →
    ∀ addr, balancer.connCount addr = s.held lb addr

/-- The session of a client. -/
def session? (s : UdpServer) (key : String) : Option UdpSession :=
  (s.sessions.lookup key).bind (s.objects[·]?)

/-! ## Removing sessions -/

/-- The entries `remove` takes. -/
def taken (s : UdpServer) (takes : String → UdpSession → Bool) : List (Σ _ : String, Nat) :=
  s.sessions.entries.filter fun e => (s.objects[e.2]?).any (takes e.1)

/-- The addresses `remove` releases. -/
def released (s : UdpServer) (takes : String → UdpSession → Bool) : List String :=
  ((s.taken takes).map (·.2)).filterMap fun i => (s.objects[i]?).map s.addressOf

theorem remove_balancer_self (s : UdpServer) (lb : Nat) (takes : String → UdpSession → Bool) :
    (s.remove lb takes).balancers[lb]? = (s.balancers[lb]?).map fun balancer =>
      (s.released takes).foldl (fun balancer addr => balancer.release addr) balancer :=
  List.getElem?_modify_eq _ _ _

theorem remove_balancer_of_ne (s : UdpServer) {lb lb' : Nat} (h : lb' ≠ lb)
    (takes : String → UdpSession → Bool) :
    (s.remove lb takes).balancers[lb']? = s.balancers[lb']? :=
  List.getElem?_modify_ne _ _ (Ne.symm h)

theorem remove_balancers_length (s : UdpServer) (lb : Nat) (takes : String → UdpSession → Bool) :
    (s.remove lb takes).balancers.length = s.balancers.length :=
  List.length_modify _ _ _

theorem remove_entries (s : UdpServer) (lb : Nat) (takes : String → UdpSession → Bool) :
    (s.remove lb takes).sessions.entries =
      s.sessions.entries.filter fun e => !(s.objects[e.2]?).any (takes e.1) := rfl

/-- Closing a socket does not change where a session comes from. -/
theorem origin_remove (s : UdpServer) (lb : Nat) (takes : String → UdpSession → Bool) (i : Nat) :
    (s.remove lb takes).origin i = s.origin i := by
  unfold origin remove
  simp only [List.getElem?_mapIdx, Option.map_map]
  congr 1
  funext sess
  dsimp only [Function.comp_apply]
  split <;> rfl

theorem mem_taken_iff {takes : String → UdpSession → Bool} {key : String} {i : Nat} :
    ⟨key, i⟩ ∈ s.taken takes ↔ ⟨key, i⟩ ∈ s.sessions.entries ∧
      ∃ sess, s.objects[i]? = some sess ∧ takes key sess := by
  unfold taken
  rw [List.mem_filter, Option.any_eq_true]

/-- The table loses what is taken. -/
theorem held_remove (s : UdpServer) (lb : Nat) (takes : String → UdpSession → Bool) (lb' : Nat)
    (addr : String) :
    (s.remove lb takes).held lb' addr +
      (s.taken takes).countP (fun e => s.origin e.2 = some (lb', addr)) = s.held lb' addr := by
  unfold held
  simp only [remove_entries, origin_remove]
  rw [Nat.add_comm]
  exact (List.countP_eq_countP_filter_add _ _ _).symm

/-- How often an address is released. -/
theorem count_released (s : UdpServer) (takes : String → UdpSession → Bool) (addr : String) :
    (s.released takes).count addr =
      (s.taken takes).countP fun e => (s.origin e.2).map Prod.snd = some addr := by
  unfold released
  rw [List.count_eq_countP, List.countP_filterMap, List.countP_map]
  apply List.countP_congr
  intro e _
  unfold origin
  cases hsess : s.objects[e.2]? with
  | none => simp [hsess]
  | some sess => simp [hsess]

theorem session?_eq_some_iff {key : String} {sess : UdpSession} :
    s.session? key = some sess ↔
      ∃ i, ⟨key, i⟩ ∈ s.sessions.entries ∧ s.objects[i]? = some sess := by
  unfold session?
  rw [Option.bind_eq_some_iff]
  apply exists_congr
  intro i
  rw [← Option.mem_def, AList.mem_lookup_iff]

/-- What a run of the server keeps, with least-connections balancers only. -/
structure Ledger (s : UdpServer) : Prop where
  running : s.crashed = false
  nonempty : s.balancers ≠ []
  leastConn : ∀ balancer ∈ s.balancers, ∃ lc, balancer = .leastConnections lc
  accounted : s.Accounted
  owned : ∀ e ∈ s.sessions.entries, ∃ lb addr,
    s.origin e.2 = some (lb, addr) ∧ lb < s.balancers.length
  fetched : ∀ key clientIP lb, Handler.fetched key clientIP lb ∈ s.handlers →
    lb < s.balancers.length
  sweeping : ∀ lb, some lb ∈ s.sweeps → lb < s.balancers.length

/-- Among the sessions taken, those of an address that were picked on `lb` are
    those of the address, when all were picked there. -/
theorem countP_taken_of_own {takes : String → UdpSession → Bool} {lb : Nat}
    (hown : ∀ key sess, s.session? key = some sess → takes key sess → sess.pickedOn = lb)
    (addr : String) :
    (s.taken takes).countP (fun e => (s.origin e.2).map Prod.snd = some addr) =
      (s.taken takes).countP fun e => s.origin e.2 = some (lb, addr) := by
  apply List.countP_congr
  rintro ⟨key, i⟩ he
  obtain ⟨hmem, sess, hobj, htakes⟩ := mem_taken_iff.mp he
  have hlb := hown key sess (session?_eq_some_iff.mpr ⟨i, hmem, hobj⟩) htakes
  simp [origin, hobj, hlb]

/-- One sweep keeps the counts if and only if it takes only sessions that were
    picked on the balancer it releases them on. -/
theorem remove_accounted_iff (h : s.Ledger) {lb : Nat} (hlb : lb < s.balancers.length)
    (takes : String → UdpSession → Bool) :
    (s.remove lb takes).Accounted ↔
      ∀ key sess, s.session? key = some sess → takes key sess → sess.pickedOn = lb := by
  constructor
  · intro hacc key sess hsess htakes
    by_contra hne
    obtain ⟨i, hmem, hobj⟩ := session?_eq_some_iff.mp hsess
    have horigin : s.origin i = some (sess.pickedOn, s.addressOf sess) := by
      rw [origin, hobj, Option.map_some]
    obtain ⟨lb', addr, horigin', hlt⟩ := h.owned _ hmem
    cases horigin.symm.trans horigin'
    -- the session's own balancer is left as it was, and the table has lost the session
    have hsame : (s.remove lb takes).balancers[sess.pickedOn]? =
        some s.balancers[sess.pickedOn] := by
      rw [remove_balancer_of_ne s hne, List.getElem?_eq_getElem hlt]
    have hafter := hacc _ _ hsame (s.addressOf sess)
    have hbefore := h.accounted _ _ (List.getElem?_eq_getElem hlt) (s.addressOf sess)
    have hheld := held_remove s lb takes sess.pickedOn (s.addressOf sess)
    have hpos : 0 < (s.taken takes).countP
        fun e => s.origin e.2 = some (sess.pickedOn, s.addressOf sess) := by
      rw [List.countP_pos_iff]
      exact ⟨⟨key, i⟩, mem_taken_iff.mpr ⟨hmem, sess, hobj, htakes⟩, decide_eq_true horigin⟩
    omega
  · intro hown lb' balancer hbalancer addr
    have hheld := held_remove s lb takes lb' addr
    by_cases hlb' : lb' = lb
    · subst hlb'
      rw [remove_balancer_self, List.getElem?_eq_getElem hlb, Option.map_some,
        Option.some.injEq] at hbalancer
      obtain ⟨lc, hlc⟩ := h.leastConn _ (List.getElem_mem hlb)
      have hbefore := h.accounted _ _ (List.getElem?_eq_getElem hlb) addr
      rw [hlc] at hbalancer hbefore
      rw [← hbalancer, connCount_releases, count_released, countP_taken_of_own hown]
      change lc.count addr = _ at hbefore
      omega
    · rw [remove_balancer_of_ne s hlb'] at hbalancer
      have hzero : (s.taken takes).countP (fun e => s.origin e.2 = some (lb', addr)) = 0 := by
        rw [List.countP_eq_zero]
        rintro ⟨key, i⟩ he horigin
        obtain ⟨hmem, sess, hobj, htakes⟩ := mem_taken_iff.mp he
        have hpicked := hown key sess (session?_eq_some_iff.mpr ⟨i, hmem, hobj⟩) htakes
        simp only [origin, hobj, Option.map_some, decide_eq_true_eq, Option.some.injEq,
          Prod.mk.injEq] at horigin
        exact hlb' (horigin.1.symm.trans hpicked)
      rw [h.accounted lb' balancer hbalancer addr]
      omega

/-! ## The other steps -/

theorem Ledger.poolGetter_lt (h : s.Ledger) : s.poolGetter < s.balancers.length :=
  Nat.sub_lt (List.length_pos_iff.mpr h.nonempty) Nat.one_pos

/-- The counts and what they are compared with stay the same. -/
structure Quiet (s s' : UdpServer) : Prop where
  crashed_eq : s'.crashed = s.crashed
  balancers_eq : s'.balancers = s.balancers
  sessions_eq : s'.sessions = s.sessions
  origin_eq : ∀ i, s'.origin i = s.origin i
  fetched : ∀ key clientIP lb, Handler.fetched key clientIP lb ∈ s'.handlers →
    Handler.fetched key clientIP lb ∈ s.handlers ∨ lb = s.poolGetter
  sweeping : ∀ lb, some lb ∈ s'.sweeps → some lb ∈ s.sweeps ∨ lb = s.poolGetter

theorem Ledger.quiet (h : s.Ledger) {s' : UdpServer} (hq : Quiet s s') : s'.Ledger := by
  have hheld : s'.held = s.held := by
    funext lb addr
    simp only [held, hq.sessions_eq, hq.origin_eq]
  refine ⟨?_, ?_, ?_, ?_, ?_, ?_, ?_⟩
  · rw [hq.crashed_eq, h.running]
  · rw [hq.balancers_eq]
    exact h.nonempty
  · rw [hq.balancers_eq]
    exact h.leastConn
  · rw [Accounted, hheld, hq.balancers_eq]
    exact h.accounted
  · rw [hq.sessions_eq, hq.balancers_eq]
    intro e he
    rw [hq.origin_eq]
    exact h.owned e he
  · intro key clientIP lb hmem
    rw [hq.balancers_eq]
    obtain hold | rfl := hq.fetched key clientIP lb hmem
    · exact h.fetched key clientIP lb hold
    · exact h.poolGetter_lt
  · intro lb hmem
    rw [hq.balancers_eq]
    obtain hold | rfl := hq.sweeping lb hmem
    · exact h.sweeping lb hold
    · exact h.poolGetter_lt

theorem Quiet.refl (s : UdpServer) : Quiet s s :=
  ⟨rfl, rfl, rfl, fun _ => rfl, fun _ _ _ => .inl, fun _ => .inl⟩

/-- A handler that moves on without a session does not fetch. -/
theorem fetched_of_mem_set {handlers : List Handler} {k : Nat} {next : Handler}
    (hnext : ∀ key clientIP lb, next ≠ .fetched key clientIP lb) {key clientIP : String} {lb : Nat}
    (h : Handler.fetched key clientIP lb ∈ handlers.set k next) :
    Handler.fetched key clientIP lb ∈ handlers := by
  obtain hold | heq := List.mem_or_eq_of_mem_set h
  · exact hold
  · exact absurd heq.symm (hnext key clientIP lb)

/-- Nor does one that got a session, or none, in the locked section. -/
theorem fetched_of_mem_set_result {handlers : List Handler} {k : Nat} {result : Option Nat}
    {key clientIP : String} {lb : Nat}
    (h : Handler.fetched key clientIP lb ∈
      handlers.set k ((result.map Handler.touching).getD .done)) :
    Handler.fetched key clientIP lb ∈ handlers := by
  refine fetched_of_mem_set ?_ h
  intro key clientIP lb heq
  cases result with
  | none => cases heq
  | some i => cases heq

/-- A change to a session object that keeps its backend and its balancer. -/
theorem origin_modify (s : UdpServer) (k : Nat) (f : UdpSession → UdpSession)
    (hf : ∀ sess, (f sess).backend = sess.backend ∧ (f sess).pickedOn = sess.pickedOn) (i : Nat) :
    ({ s with objects := s.objects.modify k f } : UdpServer).origin i = s.origin i := by
  unfold origin
  rw [List.getElem?_modify]
  by_cases hk : k = i
  · simp only [hk, if_true]
    cases s.objects[i]? with
    | none => rfl
    | some sess => simp [addressOf, (hf sess).1, (hf sess).2]
  · simp [hk]
    rfl

/-- A sweep that takes only sessions of its own balancer. -/
theorem Ledger.remove (h : s.Ledger) {lb : Nat} (hlb : lb < s.balancers.length)
    {takes : String → UdpSession → Bool}
    (hown : ∀ key sess, s.session? key = some sess → takes key sess → sess.pickedOn = lb) :
    (s.remove lb takes).Ledger := by
  have hlength := remove_balancers_length s lb takes
  refine ⟨h.running, ?_, ?_, (remove_accounted_iff h hlb takes).mpr hown, ?_, ?_, ?_⟩
  · rw [← List.length_pos_iff, hlength]
    exact List.length_pos_iff.mpr h.nonempty
  · intro balancer hmem
    obtain ⟨lb', hlb'⟩ := List.mem_iff_getElem?.mp hmem
    by_cases heq : lb' = lb
    · rw [heq, remove_balancer_self, List.getElem?_eq_getElem hlb, Option.map_some,
        Option.some.injEq] at hlb'
      obtain ⟨lc, hlc⟩ := h.leastConn _ (List.getElem_mem hlb)
      rw [← hlb', hlc]
      exact releases_leastConnections lc _
    · rw [remove_balancer_of_ne s heq] at hlb'
      exact h.leastConn _ (List.mem_of_getElem? hlb')
  · intro e he
    rw [origin_remove, hlength]
    exact h.owned e (List.mem_of_mem_filter he)
  · rw [hlength]
    exact h.fetched
  · rw [hlength]
    exact h.sweeping

/-- A new balancer starts with no connection. -/
theorem Ledger.replace (h : s.Ledger) (backends : List Nat) :
    ({ s with balancers := s.balancers ++ [newBalancer "least_conn" s.servers backends] } :
      UdpServer).Ledger := by
  have hlength : s.balancers.length < (s.balancers ++
      [newBalancer "least_conn" s.servers backends]).length := by simp
  refine ⟨h.running, by simp, ?_, ?_, ?_, ?_, ?_⟩
  · intro balancer hmem
    obtain hold | hnew := List.mem_append.mp hmem
    · exact h.leastConn balancer hold
    · exact ⟨newLeastConnections backends, List.mem_singleton.mp hnew⟩
  · intro lb balancer hbalancer addr
    by_cases hlb : lb < s.balancers.length
    · rw [List.getElem?_append_left hlb] at hbalancer
      exact h.accounted lb balancer hbalancer addr
    · -- no session was picked on the new balancer
      have hnone : s.held lb addr = 0 := by
        rw [held, List.countP_eq_zero]
        intro e he horigin
        obtain ⟨lb', addr', horigin', hlt⟩ := h.owned e he
        rw [decide_eq_true_eq, horigin'] at horigin
        cases horigin
        exact hlb hlt
      have hnew : balancer = newBalancer "least_conn" s.servers backends := by
        rw [List.getElem?_append_right (not_lt.mp hlb)] at hbalancer
        exact List.mem_singleton.mp (List.mem_of_getElem? hbalancer)
      rw [hnew]
      exact hnone.symm
  · intro e he
    obtain ⟨lb, addr, horigin, hlt⟩ := h.owned e he
    exact ⟨lb, addr, horigin, lt_trans hlt hlength⟩
  · intro key clientIP lb hmem
    exact lt_trans (h.fetched key clientIP lb hmem) hlength
  · intro lb hmem
    exact lt_trans (h.sweeping lb hmem) hlength

theorem addSession_entries {key : String} (hkey : s.sessions.lookup key = none) (lb : Nat)
    (balancer : LoadBalancer Nat) (backend : Nat) (now : Int) :
    (s.addSession key lb balancer backend now).sessions.entries =
      ⟨key, s.objects.length⟩ :: s.sessions.entries :=
  AList.entries_insert_of_notMem (AList.lookup_eq_none.mp hkey)

theorem addSession_balancers_length (key : String) (lb : Nat) (balancer : LoadBalancer Nat)
    (backend : Nat) (now : Int) :
    (s.addSession key lb balancer backend now).balancers.length = s.balancers.length :=
  List.length_set

/-- The objects there were come from where they came from. -/
theorem origin_addSession_of_lt (key : String) (lb : Nat) (balancer : LoadBalancer Nat)
    (backend : Nat) (now : Int) {i : Nat} (hi : i < s.objects.length) :
    (s.addSession key lb balancer backend now).origin i = s.origin i := by
  unfold origin addSession
  simp only [List.getElem?_append_left hi]
  rfl

theorem origin_addSession_new (s : UdpServer) (key : String) (lb : Nat)
    (balancer : LoadBalancer Nat) (backend : Nat) (now : Int) :
    (s.addSession key lb balancer backend now).origin s.objects.length =
      some (lb, (s.servers backend).address) := by
  unfold origin addSession
  simp only [List.getElem?_concat_length]
  rfl

theorem lt_of_origin {i : Nat} {o : Nat × String} (h : s.origin i = some o) :
    i < s.objects.length := by
  obtain ⟨sess, hsess, -⟩ := Option.map_eq_some_iff.mp h
  exact (List.getElem?_eq_some_iff.mp hsess).1

/-- A new session is one more for its balancer and its address. -/
theorem held_addSession (h : s.Ledger) {key : String} (hkey : s.sessions.lookup key = none)
    (lb : Nat) (balancer : LoadBalancer Nat) (backend : Nat) (now : Int) (lb' : Nat)
    (addr : String) :
    (s.addSession key lb balancer backend now).held lb' addr =
      s.held lb' addr + if (lb, (s.servers backend).address) = (lb', addr) then 1 else 0 := by
  have hold : s.sessions.entries.countP (fun e =>
        (s.addSession key lb balancer backend now).origin e.2 = some (lb', addr)) =
      s.held lb' addr := by
    apply List.countP_congr
    intro e he
    obtain ⟨lb₀, addr₀, horigin, -⟩ := h.owned e he
    rw [origin_addSession_of_lt key lb balancer backend now (lt_of_origin horigin)]
  unfold held
  rw [addSession_entries hkey, List.countP_cons, hold, origin_addSession_new]
  simp [held]

theorem Ledger.addSession (h : s.Ledger) {key : String} (hkey : s.sessions.lookup key = none)
    {lb : Nat} {lc : LeastConnections Nat} (hlb : s.balancers[lb]? = some (.leastConnections lc))
    (backend : Nat) (now : Int) :
    (s.addSession key lb (.leastConnections lc) backend now).Ledger := by
  obtain ⟨hlt, -⟩ := List.getElem?_eq_some_iff.mp hlb
  have hlength := s.addSession_balancers_length key lb (.leastConnections lc) backend now
  have hbalancers : (s.addSession key lb (.leastConnections lc) backend now).balancers =
      s.balancers.set lb (.leastConnections (lc.acquire (s.servers backend).address)) := rfl
  refine ⟨h.running, ?_, ?_, ?_, ?_, ?_, ?_⟩
  · rw [← List.length_pos_iff, hlength]
    exact List.length_pos_iff.mpr h.nonempty
  · intro balancer hmem
    rw [hbalancers] at hmem
    obtain hold | rfl := List.mem_or_eq_of_mem_set hmem
    · exact h.leastConn balancer hold
    · exact ⟨_, rfl⟩
  · intro lb' balancer hbalancer addr
    rw [held_addSession h hkey]
    rw [hbalancers] at hbalancer
    by_cases heq : lb' = lb
    · subst heq
      rw [List.getElem?_set_self hlt, Option.some.injEq] at hbalancer
      have hbefore : lc.count addr = s.held lb' addr := h.accounted lb' _ hlb addr
      rw [← hbalancer, LoadBalancer.connCount, LeastConnections.count_acquire, hbefore]
      simp
    · rw [List.getElem?_set_ne (Ne.symm heq)] at hbalancer
      rw [h.accounted lb' balancer hbalancer addr]
      simp [Ne.symm heq]
  · intro e he
    rw [hlength]
    rw [addSession_entries hkey] at he
    obtain rfl | hold := List.mem_cons.mp he
    · exact ⟨_, _, origin_addSession_new s key lb _ backend now, hlt⟩
    · obtain ⟨lb', addr, horigin, hlt'⟩ := h.owned e hold
      refine ⟨lb', addr, ?_, hlt'⟩
      rw [origin_addSession_of_lt key lb _ backend now (lt_of_origin horigin), horigin]
  · rw [hlength]
    exact h.fetched
  · rw [hlength]
    exact h.sweeping

/-- What the locked section of a handler can end in, for a call that holds the
    balancer at `lb`. -/
inductive HandleSpec (s : UdpServer) (key clientIP : String) (lb : Nat) (io : HandleIO)
    (balancer : LoadBalancer Nat) : UdpServer × Option Nat → Prop where
  | closing (h : s.closing) : HandleSpec s key clientIP lb io balancer (s, none)
  | existing (h : s.closing = false) {i : Nat} (hkey : s.sessions.lookup key = some i) :
      HandleSpec s key clientIP lb io balancer (s, some i)
  | panicked (h : s.closing = false) (hkey : s.sessions.lookup key = none)
      {balancer' : LoadBalancer Nat}
      (hpick : balancer.pick s.servers io.draw clientIP = (.panic, balancer')) :
      HandleSpec s key clientIP lb io balancer
        ({ s with balancers := s.balancers.set lb balancer', crashed := true }, none)
  | failed (h : s.closing = false) (hkey : s.sessions.lookup key = none)
      {result : PickResult Nat} {balancer' : LoadBalancer Nat}
      (hpick : balancer.pick s.servers io.draw clientIP = (result, balancer'))
      (hresult : result ≠ .panic)
      (hfail : ∀ b, result = .ok b → ¬ (io.resolved ∧ io.dialed)) :
      HandleSpec s key clientIP lb io balancer
        ({ s with balancers := s.balancers.set lb balancer' }, none)
  | created (h : s.closing = false) (hkey : s.sessions.lookup key = none)
      {b : Nat} {balancer' : LoadBalancer Nat}
      (hpick : balancer.pick s.servers io.draw clientIP = (.ok b, balancer'))
      (hdial : io.resolved ∧ io.dialed) :
      HandleSpec s key clientIP lb io balancer
        (s.addSession key lb balancer' b io.now, some s.objects.length)

theorem handle_spec (s : UdpServer) (key clientIP : String) {lb : Nat} (io : HandleIO)
    {balancer : LoadBalancer Nat} (hlb : s.balancers[lb]? = some balancer) :
    HandleSpec s key clientIP lb io balancer (s.handle key clientIP lb io) := by
  unfold handle
  by_cases hclosing : s.closing = true
  · rw [if_pos hclosing]
    exact .closing hclosing
  · rw [if_neg hclosing]
    rw [Bool.not_eq_true] at hclosing
    cases hkey : s.sessions.lookup key with
    | some i => exact .existing hclosing hkey
    | none =>
      simp only [hlb]
      cases hpick : balancer.pick s.servers io.draw clientIP with
      | mk result balancer' =>
        cases result with
        | panic => exact .panicked hclosing hkey hpick
        | error msg =>
          refine .failed hclosing hkey hpick (fun heq => by cases heq) fun b heq => ?_
          cases heq
        | ok b =>
          dsimp only
          by_cases hdial : (io.resolved && io.dialed) = true
          · rw [if_pos hdial]
            exact .created hclosing hkey hpick (Bool.and_eq_true_iff.mp hdial)
          · rw [if_neg hdial]
            refine .failed hclosing hkey hpick (fun heq => by cases heq) fun b' _ hboth => ?_
            exact hdial (Bool.and_eq_true_iff.mpr hboth)

theorem HandleSpec.handlers_eq {key clientIP : String} {lb : Nat} {io : HandleIO}
    {balancer : LoadBalancer Nat} {r : UdpServer × Option Nat}
    (h : HandleSpec s key clientIP lb io balancer r) : r.1.handlers = s.handlers := by
  cases h <;> rfl

/-- A least-connections `Pick` does not panic and changes nothing. -/
theorem leastConnections_pick (lc : LeastConnections Nat) (servers : Nat → Server) (draw : Nat)
    (clientIP : String) {result : PickResult Nat} {balancer' : LoadBalancer Nat}
    (h : (LoadBalancer.leastConnections lc).pick servers draw clientIP = (result, balancer')) :
    result ≠ .panic ∧ balancer' = .leastConnections lc := by
  simp only [LoadBalancer.pick, LeastConnections.pick, Prod.mk.injEq] at h
  obtain ⟨hresult, hbalancer⟩ := h
  refine ⟨?_, hbalancer.symm⟩
  rw [← hresult]
  split <;> exact fun heq => by cases heq

theorem Ledger.handle (h : s.Ledger) (key clientIP : String) {lb : Nat}
    {lc : LeastConnections Nat} (hlb : s.balancers[lb]? = some (.leastConnections lc))
    (io : HandleIO) : (s.handle key clientIP lb io).1.Ledger := by
  obtain ⟨hlt, hget⟩ := List.getElem?_eq_some_iff.mp hlb
  have hspec := handle_spec s key clientIP io hlb
  generalize s.handle key clientIP lb io = r at hspec ⊢
  cases hspec with
  | closing _ => exact h
  | existing _ hkey => exact h
  | panicked _ hkey hpick =>
    exact absurd rfl (leastConnections_pick lc s.servers io.draw clientIP hpick).1
  | failed _ hkey hpick _ _ =>
    obtain rfl := (leastConnections_pick lc s.servers io.draw clientIP hpick).2
    have hset : s.balancers.set lb (.leastConnections lc) = s.balancers := by
      rw [← hget]
      exact List.set_getElem_self hlt
    rw [hset]
    exact h
  | created _ hkey hpick _ =>
    obtain rfl := (leastConnections_pick lc s.servers io.draw clientIP hpick).2
    exact h.addSession hkey hlb _ io.now

/-! ## Runs -/

/-- The balancers that replacements install are least-connections balancers. -/
def InstallsLeastConn : UdpOp → Prop
  | .replace algorithm _ => algorithm = "least_conn"
  | _ => True

/-- A sweep takes only sessions that were picked on the balancer it holds. -/
def SweepsOwn (s : UdpServer) : UdpOp → Prop
  | .evict k clock => ∀ lb, s.sweeps[k]? = some (some lb) → ∀ key sess,
      s.session? key = some sess → sess.idleDuration (clock key) > s.sessionTimeout →
      sess.pickedOn = lb
  | .closeSessions => s.closing → ∀ key sess, s.session? key = some sess →
      sess.pickedOn = s.poolGetter
  | _ => True

theorem quiet_setFlags (s : UdpServer) (b : Nat) (healthy draining circuitOpen : Bool) :
    Quiet s (s.stepRunning (.setFlags b healthy draining circuitOpen)) := by
  refine ⟨rfl, rfl, rfl, fun i => ?_, fun _ _ _ => .inl, fun _ => .inl⟩
  have haddress : ∀ b', (Function.update s.servers b
      { s.servers b with healthy, draining, circuitOpen } b').address = (s.servers b').address := by
    intro b'
    by_cases hb : b' = b
    · rw [hb, Function.update_self]
    · rw [Function.update_of_ne hb]
  simp only [origin, stepRunning, addressOf, haddress]

theorem quiet_arrive (s : UdpServer) (key clientIP : String) (now : Int) :
    Quiet s (s.arrive key clientIP now) := by
  have hfetched : ∀ key' clientIP' lb, Handler.fetched key' clientIP' lb ∈
      s.handlers ++ [.fetched key clientIP s.poolGetter] →
      Handler.fetched key' clientIP' lb ∈ s.handlers ∨ lb = s.poolGetter := by
    intro key' clientIP' lb hmem
    refine (List.mem_append.mp hmem).imp_right fun hnew => ?_
    cases List.mem_singleton.mp hnew
    rfl
  unfold arrive
  cases s.rateLimit with
  | none => exact ⟨rfl, rfl, rfl, fun _ => rfl, hfetched, fun _ => .inl⟩
  | some l =>
    dsimp only
    split
    · exact ⟨rfl, rfl, rfl, fun _ => rfl, hfetched, fun _ => .inl⟩
    · exact ⟨rfl, rfl, rfl, fun _ => rfl, fun _ _ _ => .inl, fun _ => .inl⟩

/-- A step of a running server keeps the ledger, if its sweeps take their own. -/
theorem Ledger.stepRunning (h : s.Ledger) (op : UdpOp) (hop : InstallsLeastConn op)
    (hown : s.SweepsOwn op) : (s.stepRunning op).Ledger := by
  cases op with
  | replace algorithm backends =>
    cases hop
    exact h.replace backends
  | setFlags b healthy draining circuitOpen =>
    exact h.quiet (quiet_setFlags s b healthy draining circuitOpen)
  | datagram key clientIP now => exact h.quiet (quiet_arrive s key clientIP now)
  | handle k io =>
    simp only [UdpServer.stepRunning]
    split
    · rename_i key clientIP lb hk
      -- the balancer fetched before the lock is still one of the ledger's
      have hlt := h.fetched key clientIP lb (List.mem_of_getElem? hk)
      obtain ⟨lc, hlc⟩ := h.leastConn _ (List.getElem_mem hlt)
      have hlb : s.balancers[lb]? = some (.leastConnections lc) := by
        rw [List.getElem?_eq_getElem hlt, hlc]
      refine (h.handle key clientIP hlb io).quiet ⟨rfl, rfl, rfl, fun _ => rfl, ?_, fun _ => .inl⟩
      intro key' clientIP' lb' hmem
      rw [(handle_spec s key clientIP io hlb).handlers_eq]
      exact .inl (fetched_of_mem_set_result hmem)
    · exact h
  | touch k now =>
    simp only [UdpServer.stepRunning]
    split
    · rename_i sess hk
      refine h.quiet ⟨rfl, rfl, rfl, ?_, ?_, fun _ => .inl⟩
      · exact origin_modify s sess (UdpSession.touch now) fun _ => ⟨rfl, rfl⟩
      · intro key clientIP lb hmem
        exact .inl (fetched_of_mem_set (fun _ _ _ heq => by cases heq) hmem)
    · exact h
  | write k =>
    simp only [UdpServer.stepRunning]
    split
    · refine h.quiet ⟨rfl, rfl, rfl, fun _ => rfl, ?_, fun _ => .inl⟩
      intro key clientIP lb hmem
      exact .inl (fetched_of_mem_set (fun _ _ _ heq => by cases heq) hmem)
    · exact h
  | beginEvict =>
    -- the new sweep holds the pool's balancer of now
    refine h.quiet ⟨rfl, rfl, rfl, fun _ => rfl, fun _ _ _ => .inl, ?_⟩
    intro lb hmem
    refine (List.mem_append.mp hmem).imp_right fun hnew => ?_
    cases List.mem_singleton.mp hnew
    rfl
  | evict k clock =>
    simp only [UdpServer.stepRunning]
    split
    · rename_i lb hk
      -- the sessions taken out count on the balancer this sweep has fetched
      have hlb := h.sweeping lb (List.mem_of_getElem? hk)
      have hremoved : (s.remove lb fun key sess =>
          sess.idleDuration (clock key) > s.sessionTimeout).Ledger := by
        apply h.remove hlb
        intro key sess hsess htakes
        exact hown lb hk key sess hsess (of_decide_eq_true htakes)
      refine hremoved.quiet ⟨rfl, rfl, rfl, fun _ => rfl, fun _ _ _ => .inl, ?_⟩
      intro lb' hmem
      refine .inl ((List.mem_or_eq_of_mem_set hmem).resolve_right fun heq => ?_)
      cases heq
    · exact h
  | beginClose => exact h.quiet ⟨rfl, rfl, rfl, fun _ => rfl, fun _ _ _ => .inl, fun _ => .inl⟩
  | closeSessions =>
    simp only [UdpServer.stepRunning]
    split
    · rename_i hclosing
      exact h.remove h.poolGetter_lt fun key sess hsess _ => hown hclosing key sess hsess
    · exact h
  | received sess now =>
    refine h.quiet ⟨rfl, rfl, rfl, ?_, fun _ _ _ => .inl, fun _ => .inl⟩
    apply origin_modify
    intro sess
    split <;> exact ⟨rfl, rfl⟩
  | readError sess =>
    refine h.quiet ⟨rfl, rfl, rfl, ?_, fun _ _ _ => .inl, fun _ => .inl⟩
    apply origin_modify
    intro sess
    split <;> exact ⟨rfl, rfl⟩

theorem step_of_running (h : s.crashed = false) (op : UdpOp) : s.step op = s.stepRunning op := by
  unfold step
  rw [h]
  rfl

theorem Ledger.step (h : s.Ledger) (op : UdpOp) (hop : InstallsLeastConn op)
    (hown : s.SweepsOwn op) : (s.step op).Ledger := by
  rw [step_of_running h.running]
  exact h.stepRunning op hop hown

/-- The counts after a step show whether its sweep took sessions of its own only. -/
theorem Ledger.sweepsOwn_of_accounted (h : s.Ledger) (op : UdpOp)
    (hacc : (s.step op).Accounted) : s.SweepsOwn op := by
  rw [step_of_running h.running] at hacc
  cases op with
  | evict k clock =>
    intro lb hk key sess hsess hidle
    simp only [UdpServer.stepRunning, hk] at hacc
    have hremoved : (s.remove lb fun key sess =>
        sess.idleDuration (clock key) > s.sessionTimeout).Accounted := hacc
    have hlb := h.sweeping lb (List.mem_of_getElem? hk)
    exact (remove_accounted_iff h hlb _).mp hremoved key sess hsess (decide_eq_true hidle)
  | closeSessions =>
    intro hclosing key sess hsess
    simp only [UdpServer.stepRunning, hclosing, if_true] at hacc
    exact (remove_accounted_iff h h.poolGetter_lt _).mp hacc key sess hsess rfl
  | _ => trivial

/-- After the step every balancer counts its sessions of the table, and after
    `Close` has removed all sessions no balancer counts any. -/
def SettledAfter (s : UdpServer) (op : UdpOp) : Prop :=
  (s.step op).Accounted ∧ (op = .closeSessions → s.closing →
    ∀ balancer ∈ (s.step op).balancers, ∀ addr, balancer.connCount addr = 0)

theorem held_closeSessions (h : s.Ledger) (hclosing : s.closing) (lb : Nat) (addr : String) :
    (s.step .closeSessions).held lb addr = 0 := by
  rw [step_of_running h.running]
  simp only [UdpServer.stepRunning, hclosing, if_true, held, remove_entries]
  rw [List.countP_eq_zero]
  intro e he
  obtain ⟨hmem, htaken⟩ := List.mem_filter.mp he
  obtain ⟨lb', addr', horigin, -⟩ := h.owned e hmem
  obtain ⟨sess, hsess, -⟩ := Option.map_eq_some_iff.mp horigin
  simp [hsess] at htaken

theorem Ledger.settledAfter_iff (h : s.Ledger) (op : UdpOp) (hop : InstallsLeastConn op) :
    s.SettledAfter op ↔ s.SweepsOwn op := by
  constructor
  · intro hsettled
    exact h.sweepsOwn_of_accounted op hsettled.1
  · intro hown
    have hacc := (h.step op hop hown).accounted
    refine ⟨hacc, ?_⟩
    rintro rfl hclosing balancer hmem addr
    obtain ⟨lb, hlb⟩ := List.mem_iff_getElem?.mp hmem
    rw [hacc lb balancer hlb addr, held_closeSessions h hclosing]

end UdpServer

open UdpServer in
/-- For every server over least-connections balancers and every interleaving of
    datagrams, sweeps, `Close`, readers and replacements of the pool state: at
    every step each balancer counts the sessions of the table that were picked on
    it, and none after `Close`, if and only if every sweep takes only sessions
    that were picked on the balancer it holds. -/
theorem sessions_accounted_iff (rateLimit : Option Ratelimit.Limiter) (sessionTimeout : Duration)
    (servers : Nat → Server) (backends : List Nat) (ops : List UdpOp)
    (hops : ∀ op ∈ ops, InstallsLeastConn op) :
    ops.Along UdpServer.step SettledAfter
        (newUdpServer rateLimit sessionTimeout servers
          (newBalancer "least_conn" servers backends)) ↔
      ops.Along UdpServer.step SweepsOwn
        (newUdpServer rateLimit sessionTimeout servers
          (newBalancer "least_conn" servers backends)) := by
  apply List.along_iff UdpServer.step _ _ InstallsLeastConn Ledger
  · intro s op hop h hown
    exact h.step op hop hown
  · intro s op hop h
    exact h.settledAfter_iff op hop
  · refine ⟨rfl, by simp [newUdpServer], ?_, ?_, ?_, ?_, ?_⟩
    · intro balancer hmem
      exact ⟨newLeastConnections backends, List.mem_singleton.mp hmem⟩
    · intro lb balancer hbalancer addr
      have hmem := List.mem_singleton.mp (List.mem_of_getElem? hbalancer)
      rw [hmem]
      rfl
    · intro e he
      cases he
    · intro key clientIP lb hmem
      cases hmem
    · intro lb hmem
      cases hmem
  · exact hops

/-! ## A sweep after a replacement -/

/-- A server with one backend, least-connections balancing and a timeout of 60. -/
def dnsProxy : UdpServer :=
  newUdpServer none 60 (fun _ => newServer "10.0.0.1:53" 1)
    (newBalancer "least_conn" (fun _ => newServer "10.0.0.1:53" 1) [0])

/-- A datagram of a client, and its session when it has none. -/
def newClient (key : String) (k : Nat) (now : Int) : List UdpOp :=
  [.datagram key "10.0.0.9" now, .handle k { draw := 0, resolved := true, dialed := true, now }]

/-- One client before a replacement of the pool state and one after it; then a
    sweep that finds the first one idle. -/
def replacedThenSwept : List UdpOp :=
  newClient "10.0.0.9:4000" 0 1 ++ [.replace "least_conn" [0]] ++
    newClient "10.0.0.9:5000" 1 90 ++ [.beginEvict, .evict 0 fun _ => 100]

/-- The first balancer keeps counting the session that is gone, and the second one
    does not count the session that is there. -/
theorem sweep_releases_on_new_balancer :
    ((replacedThenSwept.foldl UdpServer.step dnsProxy).balancers.map
        (LoadBalancer.connCount "10.0.0.1:53")) = [1, 0] ∧
      (replacedThenSwept.foldl UdpServer.step dnsProxy).held 0 "10.0.0.1:53" = 0 ∧
      (replacedThenSwept.foldl UdpServer.step dnsProxy).held 1 "10.0.0.1:53" = 1 := by
  decide +kernel

/-- Without the replacement. -/
def swept : List UdpOp := newClient "10.0.0.9:4000" 0 1 ++ [.beginEvict, .evict 0 fun _ => 100]

theorem swept_accounted :
    (∀ op ∈ swept, UdpServer.InstallsLeastConn op) ∧
      swept.Along UdpServer.step UdpServer.SettledAfter dnsProxy := by
  have hops : ∀ op ∈ swept, UdpServer.InstallsLeastConn op := by
    simp [swept, newClient, UdpServer.InstallsLeastConn]
  refine ⟨hops, (sessions_accounted_iff none 60 _ [0] swept hops).mpr ?_⟩
  refine ⟨trivial, trivial, trivial, ?_, trivial⟩
  intro lb hk key sess hsess _
  cases hk
  obtain ⟨i, hmem, hobj⟩ := UdpServer.session?_eq_some_iff.mp hsess
  cases hmem with
  | head =>
    cases hobj
    rfl
  | tail _ hrest => cases hrest

end HootLb.L4
