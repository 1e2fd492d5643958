import HootLb.Spec.UdpAccounting

/-!
# Live UDP sessions

The socket of a session is closed together with its table entry by `evictExpired`
and `Close`. Its reader closes it as well, on any read error, and leaves the
entry: from then on the client's datagrams go to a closed socket, and each of them
renews the entry's activity, so that it is not swept.

We state for each step that the table's sessions are live after it and that a
datagram which could go on does, and say what that needs of the step.

## Key results

- `Sound`: sockets are open exactly for the sessions of the table
- `sessions_live_iff`: the runs in which sessions stay live and datagrams go out
-/

namespace HootLb.L4

/-- The state of a session's socket and of its reader. -/
def UdpSession.conn (sess : UdpSession) : Bool × Bool := (sess.connOpen, sess.reading)

namespace UdpServer

open Balancer

variable {s : UdpServer}

/-- Every session of the table has an open socket and a running reader. -/
def LiveTable (s : UdpServer) : Prop :=
  ∀ e ∈ s.sessions.entries, ∃ sess,
    s.objects[e.2]? = some sess ∧ sess.connOpen ∧ sess.reading

/-- The balancer at `lb` has an eligible backend. -/
def HasEligible (s : UdpServer) (lb : Nat) : Prop :=
  ∃ balancer, s.balancers[lb]? = some balancer ∧ ∃ b ∈ balancer.backends, (s.servers b).eligible

/-- A datagram goes on at this step, if there is an eligible backend: on arrival
    to its handler, under the lock to a session, and at the write to an open
    socket. -/
def Delivers (s : UdpServer) : UdpOp → Prop
  | .datagram key clientIP now => s.HasEligible s.poolGetter →
      (s.step (.datagram key clientIP now)).handlers =
        s.handlers ++ [.fetched key clientIP s.poolGetter]
  | .handle k io => ∀ key clientIP lb, s.handlers[k]? = some (.fetched key clientIP lb) →
      s.HasEligible lb → ∃ i, (s.step (.handle k io)).handlers[k]? = some (.touching i)
  | .write k => ∀ i, s.handlers[k]? = some (.writing i) →
      ∃ sess, s.objects[i]? = some sess ∧ sess.connOpen
  | _ => True

/-- The table is live after the step and the step delivers. -/
def LiveAfter (s : UdpServer) (op : UdpOp) : Prop := (s.step op).LiveTable ∧ s.Delivers op

/-- What the step needs for that: the rate limit admits a datagram; its handler
    finds the server not closing, and a session or a backend it can reach; a
    session is not removed between a handler's lock and its write; and a reader
    fails only on a socket that was closed before. -/
def Undisturbed (s : UdpServer) : UdpOp → Prop
  | .datagram _ clientIP now => s.HasEligible s.poolGetter →
      ∀ l, s.rateLimit = some l → (l.allow clientIP now).1
  | .handle k io => ∀ key clientIP lb, s.handlers[k]? = some (.fetched key clientIP lb) →
      s.HasEligible lb → s.closing = false ∧ (s.sessions.lookup key = none →
        (∀ balancer, s.balancers[lb]? = some balancer →
          ∃ b, (balancer.pick s.servers io.draw clientIP).1 = .ok b) ∧ io.resolved ∧ io.dialed)
  | .write k => ∀ i, s.handlers[k]? = some (.writing i) → ∃ key, ⟨key, i⟩ ∈ s.sessions.entries
  | .readError i => ∀ sess, s.objects[i]? = some sess → sess.reading → sess.connOpen = false
  | _ => True

/-- What a run keeps: sockets are open exactly for the sessions of the table, each
    of which has its own. -/
structure Sound (s : UdpServer) : Prop where
  running : s.crashed = false
  nonempty : s.balancers ≠ []
  live : s.LiveTable
  own : (s.sessions.entries.map (·.2)).Nodup
  listed : ∀ i sess, s.objects[i]? = some sess → sess.connOpen →
    ∃ key, ⟨key, i⟩ ∈ s.sessions.entries
  fetched : ∀ key clientIP lb, Handler.fetched key clientIP lb ∈ s.handlers →
    lb < s.balancers.length

theorem LiveTable.lt (h : s.LiveTable) {e : Σ _ : String, Nat} (he : e ∈ s.sessions.entries) :
    e.2 < s.objects.length := by
  obtain ⟨sess, hsess, -⟩ := h e he
  exact (List.getElem?_eq_some_iff.mp hsess).1

/-! ## Steps that leave sockets alone -/

/-- Sockets, readers and the table stay the same. -/
structure Still (s s' : UdpServer) : Prop where
  crashed_eq : s'.crashed = s.crashed
  balancers_length : s.balancers.length ≤ s'.balancers.length
  sessions_eq : s'.sessions = s.sessions
  conn_eq : ∀ i : Nat, (s'.objects[i]?).map UdpSession.conn = (s.objects[i]?).map UdpSession.conn
  fetched : ∀ key clientIP lb, Handler.fetched key clientIP lb ∈ s'.handlers →
    Handler.fetched key clientIP lb ∈ s.handlers ∨ lb = s.poolGetter

theorem Still.object {s' : UdpServer} (h : Still s s') {i : Nat} {sess : UdpSession}
    (hsess : s.objects[i]? = some sess) :
    ∃ sess', s'.objects[i]? = some sess' ∧ sess'.connOpen = sess.connOpen ∧
      sess'.reading = sess.reading := by
  have heq := h.conn_eq i
  rw [hsess, Option.map_some, Option.map_eq_some_iff] at heq
  obtain ⟨sess', hsess', hconn⟩ := heq
  exact ⟨sess', hsess', congrArg Prod.fst hconn, congrArg Prod.snd hconn⟩

theorem Still.object_back {s' : UdpServer} (h : Still s s') {i : Nat} {sess' : UdpSession}
    (hsess' : s'.objects[i]? = some sess') :
    ∃ sess, s.objects[i]? = some sess ∧ sess'.connOpen = sess.connOpen := by
  have heq := h.conn_eq i
  rw [hsess', Option.map_some, eq_comm, Option.map_eq_some_iff] at heq
  obtain ⟨sess, hsess, hconn⟩ := heq
  exact ⟨sess, hsess, (congrArg Prod.fst hconn).symm⟩

theorem Sound.still (h : s.Sound) {s' : UdpServer} (hs : Still s s') : s'.Sound := by
  have hpos := List.length_pos_iff.mpr h.nonempty
  have hlength := hs.balancers_length
  refine ⟨?_, ?_, ?_, ?_, ?_, ?_⟩
  · rw [hs.crashed_eq, h.running]
  · exact List.length_pos_iff.mp (lt_of_lt_of_le hpos hlength)
  · intro e he
    rw [hs.sessions_eq] at he
    obtain ⟨sess, hsess, hopen, hreading⟩ := h.live e he
    obtain ⟨sess', hsess', hconn, hread⟩ := hs.object hsess
    exact ⟨sess', hsess', hconn.trans hopen, hread.trans hreading⟩
  · rw [hs.sessions_eq]
    exact h.own
  · intro i sess' hsess' hopen
    obtain ⟨sess, hsess, hconn⟩ := hs.object_back hsess'
    rw [hs.sessions_eq]
    exact h.listed i sess hsess (hconn.symm.trans hopen)
  · intro key clientIP lb hmem
    obtain hold | rfl := hs.fetched key clientIP lb hmem
    · exact lt_of_lt_of_le (h.fetched key clientIP lb hold) hlength
    · exact lt_of_lt_of_le (Nat.sub_lt hpos Nat.one_pos) hlength

/-- A change to a session object that keeps socket and reader. -/
theorem conn_modify (objects : List UdpSession) (k : Nat) (f : UdpSession → UdpSession)
    (hf : ∀ sess, (f sess).conn = sess.conn) (i : Nat) :
    ((objects.modify k f)[i]?).map UdpSession.conn = (objects[i]?).map UdpSession.conn := by
  rw [List.getElem?_modify]
  by_cases hk : k = i
  · simp only [hk, if_true]
    cases objects[i]? with
    | none => rfl
    | some sess => simp [hf]
  · simp [hk]

/-! ## New and removed sessions -/

theorem Sound.addSession (h : s.Sound) {key : String} (hkey : s.sessions.lookup key = none)
    (lb : Nat) (balancer : LoadBalancer Nat) (backend : Nat) (now : Int) :
    (s.addSession key lb balancer backend now).Sound := by
  have hentries := addSession_entries hkey lb balancer backend now
  have hlength := s.addSession_balancers_length key lb balancer backend now
  have hobjects : (s.addSession key lb balancer backend now).objects = s.objects ++
      [{ backend, lastActive := now, connOpen := true, reading := true, pickedOn := lb }] := rfl
  refine ⟨h.running, ?_, ?_, ?_, ?_, ?_⟩
  · rw [← List.length_pos_iff, hlength]
    exact List.length_pos_iff.mpr h.nonempty
  · intro e he
    rw [hentries] at he
    rw [hobjects]
    obtain rfl | hold := List.mem_cons.mp he
    · exact ⟨_, List.getElem?_concat_length, rfl, rfl⟩
    · rw [List.getElem?_append_left (h.live.lt hold)]
      exact h.live e hold
  · rw [hentries, List.map_cons, List.nodup_cons]
    refine ⟨fun hmem => ?_, h.own⟩
    obtain ⟨e, he, heq⟩ := List.mem_map.mp hmem
    exact absurd heq (ne_of_lt (h.live.lt he))
  · intro i sess hsess hopen
    rw [hentries]
    rw [hobjects] at hsess
    by_cases hi : i < s.objects.length
    · rw [List.getElem?_append_left hi] at hsess
      obtain ⟨key', hmem⟩ := h.listed i sess hsess hopen
      exact ⟨key', List.mem_cons_of_mem _ hmem⟩
    · obtain ⟨hlt, -⟩ := List.getElem?_eq_some_iff.mp hsess
      rw [List.length_append, List.length_singleton] at hlt
      obtain rfl : i = s.objects.length := by omega
      exact ⟨key, List.mem_cons_self⟩
  · rw [hlength]
    exact h.fetched

theorem remove_object (s : UdpServer) (lb : Nat) (takes : String → UdpSession → Bool) (i : Nat) :
    (s.remove lb takes).objects[i]? = (s.objects[i]?).map fun sess =>
      if i ∈ (s.taken takes).map (·.2) then sess.closeConn else sess := by
  exact List.getElem?_mapIdx

/-- A session that is kept shares its object with none that is taken. -/
theorem Sound.not_taken (h : s.Sound) {takes : String → UdpSession → Bool}
    {e : Σ _ : String, Nat} (he : e ∈ s.sessions.entries)
    (hkept : (s.objects[e.2]?).any (takes e.1) = false) :
    e.2 ∉ (s.taken takes).map (·.2) := by
  intro hmem
  obtain ⟨e', he', heq⟩ := List.mem_map.mp hmem
  obtain ⟨hmem', htaken⟩ := List.mem_filter.mp he'
  cases List.inj_on_of_nodup_map h.own hmem' he heq
  rw [hkept] at htaken
  cases htaken

theorem Sound.remove (h : s.Sound) (lb : Nat) (takes : String → UdpSession → Bool) :
    (s.remove lb takes).Sound := by
  have hlength := remove_balancers_length s lb takes
  refine ⟨h.running, ?_, ?_, ?_, ?_, ?_⟩
  · rw [← List.length_pos_iff, hlength]
    exact List.length_pos_iff.mpr h.nonempty
  · intro e he
    obtain ⟨hmem, hkept⟩ := List.mem_filter.mp he
    obtain ⟨sess, hsess, hlive⟩ := h.live e hmem
    refine ⟨sess, ?_, hlive⟩
    rw [remove_object, hsess, Option.map_some,
      if_neg (h.not_taken hmem (Bool.not_eq_true' _ ▸ hkept))]
  · exact h.own.sublist (List.filter_sublist.map _)
  · intro i sess' hsess' hopen
    rw [remove_object] at hsess'
    obtain ⟨sess, hsess, heq⟩ := Option.map_eq_some_iff.mp hsess'
    split at heq
    · cases heq
      cases hopen
    · rename_i hnot
      subst heq
      obtain ⟨key, hmem⟩ := h.listed i sess hsess hopen
      refine ⟨key, List.mem_filter.mpr ⟨hmem, ?_⟩⟩
      rw [Bool.not_eq_true', Bool.eq_false_iff]
      intro htaken
      exact hnot (List.mem_map.mpr ⟨⟨key, i⟩, List.mem_filter.mpr ⟨hmem, htaken⟩, rfl⟩)
  · rw [hlength]
    exact h.fetched

/-! ## Readers -/

theorem readError_object (s : UdpServer) (k i : Nat) :
    (s.stepRunning (.readError k)).objects[i]? = (s.objects[i]?).map fun sess =>
      if k = i ∧ sess.reading then { sess.closeConn with reading := false } else sess := by
  simp only [stepRunning, List.getElem?_modify]
  by_cases hk : k = i
  · simp [hk]
  · simp [hk]

/-- A reader that fails on a closed socket leaves the table as it was. -/
theorem Sound.readError (h : s.Sound) (k : Nat)
    (hclosed : ∀ sess, s.objects[k]? = some sess → sess.reading → sess.connOpen = false) :
    (s.stepRunning (.readError k)).Sound := by
  refine ⟨h.running, h.nonempty, ?_, h.own, ?_, h.fetched⟩
  · intro e he
    obtain ⟨sess, hsess, hopen, hreading⟩ := h.live e he
    refine ⟨sess, ?_, hopen, hreading⟩
    rw [readError_object, hsess, Option.map_some, if_neg]
    rintro ⟨rfl, -⟩
    rw [hclosed sess hsess hreading] at hopen
    cases hopen
  · intro i sess' hsess' hopen
    rw [readError_object] at hsess'
    obtain ⟨sess, hsess, heq⟩ := Option.map_eq_some_iff.mp hsess'
    split at heq
    · cases heq
      cases hopen
    · subst heq
      exact h.listed i sess hsess hopen

/-- A reader that fails on an open socket leaves a dead session in the table. -/
theorem Sound.not_liveTable_of_readError (h : s.Sound) {k : Nat} {sess : UdpSession}
    (hsess : s.objects[k]? = some sess) (hreading : sess.reading) (hopen : sess.connOpen) :
    ¬ (s.stepRunning (.readError k)).LiveTable := by
  intro hlive
  obtain ⟨key, hmem⟩ := h.listed k sess hsess hopen
  obtain ⟨sess', hsess', hopen', -⟩ := hlive ⟨key, k⟩ hmem
  rw [readError_object, hsess, Option.map_some, if_pos ⟨rfl, hreading⟩] at hsess'
  cases hsess'
  cases hopen'

/-! ## Datagrams -/

theorem arrive_handlers_iff (s : UdpServer) (key clientIP : String) (now : Int) :
    (s.arrive key clientIP now).handlers = s.handlers ++ [.fetched key clientIP s.poolGetter] ↔
      ∀ l, s.rateLimit = some l → (l.allow clientIP now).1 := by
  unfold arrive
  cases hlimit : s.rateLimit with
  | none => simp
  | some l =>
    by_cases hallow : (l.allow clientIP now).1 = true
    · simp [hallow, poolGetter]
    · simp [hallow]

theorem still_arrive (s : UdpServer) (key clientIP : String) (now : Int) :
    Still s (s.arrive key clientIP now) := by
  have hquiet := quiet_arrive s key clientIP now
  refine ⟨hquiet.crashed_eq, ?_, hquiet.sessions_eq, ?_, hquiet.fetched⟩
  · rw [hquiet.balancers_eq]
  · intro i
    unfold arrive
    cases s.rateLimit with
    | none => rfl
    | some l =>
      dsimp only
      split <;> rfl

/-- When the locked section ends with a session. -/
theorem HandleSpec.isSome_iff {key clientIP : String} {lb : Nat} {io : HandleIO}
    {balancer : LoadBalancer Nat} {r : UdpServer × Option Nat}
    (h : HandleSpec s key clientIP lb io balancer r) :
    r.2.isSome ↔ s.closing = false ∧ (s.sessions.lookup key = none →
      (∃ b, (balancer.pick s.servers io.draw clientIP).1 = .ok b) ∧ io.resolved ∧ io.dialed) := by
  cases h with
  | closing hclosing => simp [hclosing]
  | existing hclosing hkey => simp [hclosing, hkey]
  | panicked hclosing hkey hpick => simp [hkey, hpick]
  | failed hclosing hkey hpick hresult hfail =>
    simp only [Option.isSome_none, Bool.false_eq_true, false_iff]
    rintro ⟨-, hsome⟩
    obtain ⟨⟨b, hb⟩, hdial⟩ := hsome hkey
    rw [hpick] at hb
    exact hfail b hb hdial
  | created hclosing hkey hpick hdial => simp [hclosing, hkey, hpick, hdial]

theorem HandleSpec.sound {key clientIP : String} {lb : Nat} {io : HandleIO}
    {balancer : LoadBalancer Nat} {r : UdpServer × Option Nat}
    (h : HandleSpec s key clientIP lb io balancer r) (hs : s.Sound)
    (hpanic : (balancer.pick s.servers io.draw clientIP).1 = .panic →
      s.closing ∨ s.sessions.lookup key ≠ none) : r.1.Sound := by
  cases h with
  | closing hclosing => exact hs
  | existing hclosing hkey => exact hs
  | panicked hclosing hkey hpick =>
    obtain hc | hk := hpanic (by rw [hpick])
    · rw [hclosing] at hc
      cases hc
    · exact absurd hkey hk
  | failed hclosing hkey hpick hresult hfail =>
    refine hs.still ⟨rfl, ?_, rfl, fun _ => rfl, fun _ _ _ => .inl⟩
    exact le_of_eq List.length_set.symm
  | created hclosing hkey hpick hdial => exact hs.addSession hkey lb _ _ io.now

/-- The handler at `k` moves on to the session it got. -/
theorem stepRunning_handle {k : Nat} {key clientIP : String} {lb : Nat} (io : HandleIO)
    (hk : s.handlers[k]? = some (.fetched key clientIP lb)) :
    s.stepRunning (.handle k io) =
      { (s.handle key clientIP lb io).1 with
        handlers := s.handlers.set k
          (((s.handle key clientIP lb io).2.map Handler.touching).getD .done) } := by
  simp only [stepRunning, hk]

theorem touching_iff {k : Nat} {key clientIP : String} {lb : Nat} (io : HandleIO)
    (hk : s.handlers[k]? = some (.fetched key clientIP lb)) :
    (∃ i, (s.stepRunning (.handle k io)).handlers[k]? = some (.touching i)) ↔
      (s.handle key clientIP lb io).2.isSome := by
  obtain ⟨hlt, -⟩ := List.getElem?_eq_some_iff.mp hk
  rw [stepRunning_handle io hk]
  simp only [List.getElem?_set_self hlt]
  cases (s.handle key clientIP lb io).2 with
  | none => simp
  | some i => simp

theorem Sound.handle (h : s.Sound) (k : Nat) (io : HandleIO) (hq : s.Undisturbed (.handle k io)) :
    (s.stepRunning (.handle k io)).Sound := by
  cases hk : s.handlers[k]? with
  | none =>
    simp only [UdpServer.stepRunning, hk]
    exact h
  | some handler =>
    cases handler with
    | fetched key clientIP lb =>
      have hlt := h.fetched key clientIP lb (List.mem_of_getElem? hk)
      have hlb := List.getElem?_eq_getElem hlt
      have hspec := handle_spec s key clientIP io hlb
      have hsound : (s.handle key clientIP lb io).1.Sound := by
        apply hspec.sound h
        intro hpanic
        -- a panic needs an eligible backend, and then the handler was to get a session
        have heligible : s.HasEligible lb :=
          ⟨_, hlb, LoadBalancer.pick_panic s.servers io.draw clientIP _ hpanic⟩
        refine .inr fun hnone => ?_
        obtain ⟨b, hb⟩ := ((hq key clientIP lb hk heligible).2 hnone).1 _ hlb
        rw [hpanic] at hb
        cases hb
      rw [stepRunning_handle io hk]
      refine hsound.still ⟨rfl, le_refl _, rfl, fun _ => rfl, ?_⟩
      intro key' clientIP' lb' hmem
      rw [hspec.handlers_eq]
      exact .inl (fetched_of_mem_set_result hmem)
    | touching i =>
      simp only [UdpServer.stepRunning, hk]
      exact h
    | writing i =>
      simp only [UdpServer.stepRunning, hk]
      exact h
    | done =>
      simp only [UdpServer.stepRunning, hk]
      exact h

/-! ## Runs -/

theorem Sound.stepRunning (h : s.Sound) (op : UdpOp) (hq : s.Undisturbed op) :
    (s.stepRunning op).Sound := by
  cases op with
  | replace algorithm backends =>
    refine h.still ⟨rfl, ?_, rfl, fun _ => rfl, fun _ _ _ => .inl⟩
    simp [UdpServer.stepRunning]
  | setFlags b healthy draining circuitOpen =>
    exact h.still ⟨rfl, le_refl _, rfl, fun _ => rfl, fun _ _ _ => .inl⟩
  | datagram key clientIP now => exact h.still (still_arrive s key clientIP now)
  | handle k io => exact h.handle k io hq
  | touch k now =>
    simp only [UdpServer.stepRunning]
    split
    · rename_i i hk
      refine h.still ⟨rfl, le_refl _, rfl, ?_, ?_⟩
      · exact conn_modify s.objects i (UdpSession.touch now) fun _ => rfl
      · intro key clientIP lb hmem
        exact .inl (fetched_of_mem_set (fun _ _ _ heq => by cases heq) hmem)
    · exact h
  | write k =>
    simp only [UdpServer.stepRunning]
    split
    · refine h.still ⟨rfl, le_refl _, rfl, fun _ => rfl, ?_⟩
      intro key clientIP lb hmem
      exact .inl (fetched_of_mem_set (fun _ _ _ heq => by cases heq) hmem)
    · exact h
  | beginEvict => exact h.still ⟨rfl, le_refl _, rfl, fun _ => rfl, fun _ _ _ => .inl⟩
  | evict k clock =>
    simp only [UdpServer.stepRunning]
    split
    · rename_i lb hk
      have hremoved := h.remove lb fun key sess => sess.idleDuration (clock key) > s.sessionTimeout
      exact hremoved.still ⟨rfl, le_refl _, rfl, fun _ => rfl, fun _ _ _ => .inl⟩
    · exact h
  | beginClose => exact h.still ⟨rfl, le_refl _, rfl, fun _ => rfl, fun _ _ _ => .inl⟩
  | closeSessions =>
    simp only [UdpServer.stepRunning]
    split
    · exact h.remove _ _
    · exact h
  | received i now =>
    refine h.still ⟨rfl, le_refl _, rfl, ?_, fun _ _ _ => .inl⟩
    apply conn_modify
    intro sess
    split <;> rfl
  | readError k => exact h.readError k hq

theorem Sound.step (h : s.Sound) (op : UdpOp) (hq : s.Undisturbed op) : (s.step op).Sound := by
  rw [step_of_running h.running]
  exact h.stepRunning op hq

/-- A step from a sound state delivers if it is undisturbed. -/
theorem Sound.delivers (h : s.Sound) (op : UdpOp) (hq : s.Undisturbed op) : s.Delivers op := by
  cases op with
  | datagram key clientIP now =>
    intro heligible
    rw [step_of_running h.running]
    exact (arrive_handlers_iff s key clientIP now).mpr (hq heligible)
  | handle k io =>
    intro key clientIP lb hk heligible
    obtain ⟨hclosing, hnew⟩ := hq key clientIP lb hk heligible
    obtain ⟨balancer, hlb, -⟩ := heligible
    rw [step_of_running h.running, touching_iff io hk,
      (handle_spec s key clientIP io hlb).isSome_iff]
    exact ⟨hclosing, fun hnone => (hnew hnone).imp_left fun hpick => hpick balancer hlb⟩
  | write k =>
    intro i hk
    obtain ⟨key, hmem⟩ := hq i hk
    obtain ⟨sess, hsess, hopen, -⟩ := h.live ⟨key, i⟩ hmem
    exact ⟨sess, hsess, hopen⟩
  | _ => trivial

theorem Sound.undisturbed (h : s.Sound) (op : UdpOp) (hlive : s.LiveAfter op) :
    s.Undisturbed op := by
  obtain ⟨htable, hdelivers⟩ := hlive
  cases op with
  | datagram key clientIP now =>
    intro heligible
    have harrived := hdelivers heligible
    rw [step_of_running h.running] at harrived
    exact (arrive_handlers_iff s key clientIP now).mp harrived
  | handle k io =>
    intro key clientIP lb hk heligible
    have htouching := hdelivers key clientIP lb hk heligible
    obtain ⟨balancer, hlb, -⟩ := heligible
    rw [step_of_running h.running, touching_iff io hk,
      (handle_spec s key clientIP io hlb).isSome_iff] at htouching
    refine ⟨htouching.1, fun hnone => (htouching.2 hnone).imp_left ?_⟩
    intro hpick balancer' hlb'
    cases hlb.symm.trans hlb'
    exact hpick
  | write k =>
    intro i hk
    obtain ⟨sess, hsess, hopen⟩ := hdelivers i hk
    exact h.listed i sess hsess hopen
  | readError k =>
    intro sess hsess hreading
    rw [step_of_running h.running] at htable
    by_contra hopen
    rw [Bool.not_eq_false] at hopen
    exact h.not_liveTable_of_readError hsess hreading hopen htable
  | _ => trivial

end UdpServer

open UdpServer in
/-- For every server and every interleaving of datagrams, readers, sweeps, `Close`
    and replacements of the pool state: at every step the sessions of the table
    are live and a datagram that has an eligible backend goes on, if and only if
    every step is undisturbed. -/
theorem sessions_live_iff (rateLimit : Option Ratelimit.Limiter) (sessionTimeout : Duration)
    (servers : Nat → Balancer.Server) (lb : Balancer.LoadBalancer Nat) (ops : List UdpOp) :
    ops.Along UdpServer.step LiveAfter (newUdpServer rateLimit sessionTimeout servers lb) ↔
      ops.Along UdpServer.step Undisturbed (newUdpServer rateLimit sessionTimeout servers lb) := by
  apply List.along_iff UdpServer.step _ _ (fun _ => True) Sound
  · intro s op _ h hq
    exact h.step op hq
  · intro s op _ h
    exact ⟨h.undisturbed op, fun hq => ⟨(h.step op hq).live, h.delivers op hq⟩⟩
  · refine ⟨rfl, by simp [newUdpServer], ?_, List.nodup_nil, ?_, ?_⟩
    · intro e he
      cases he
    · intro i sess hsess
      cases hsess
    · intro key clientIP lb hmem
      cases hmem
  · intro op _
    trivial

/-! ## A refused port -/

/-- A client's first datagram goes out, the backend's port refuses it, and the
    client sends a second one. -/
def refusedThenSent : List UdpOp :=
  newClient "10.0.0.9:4000" 0 1 ++ [.touch 0 1, .write 0, .readError 0] ++
    newClient "10.0.0.9:4000" 1 2 ++ [.touch 1 2]

/-- The second datagram is about to be written to the closed socket of a session
    that is in the table. -/
theorem refused_session_stays :
    (refusedThenSent.foldl UdpServer.step dnsProxy).handlers = [.done, .writing 0] ∧
      (refusedThenSent.foldl UdpServer.step dnsProxy).session? "10.0.0.9:4000" =
        some { backend := 0, lastActive := 2, connOpen := false, reading := false
               pickedOn := 0 } := by
  decide +kernel

end HootLb.L4
