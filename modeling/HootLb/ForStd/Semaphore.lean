import HootLb.ForStd.List

/-!
# Counting semaphores

A channel of tokens used as a semaphore, together with the clients that use it.
What a client is doing decides whether it holds a token; a semaphore is accounted
for when it has as many tokens in it as clients that hold one. That is kept by a
client that arrives, by one that takes or gives back a token as it moves on, and
by one that moves on otherwise, and it means that a client that gives its token
back finds one in the channel.

`Admission` is the usual way to limit clients with a semaphore: they arrive, are
admitted with a token or refused without one, move about with their token and give
it back at the end.
-/

/-- The number of tokens in the channel, and the clients so far. -/
structure Semaphore (φ : Type) where
  tokens : Nat
  clients : List φ

namespace Semaphore

variable {φ : Type}

def empty : Semaphore φ := { tokens := 0, clients := [] }

/-- A client arrives. -/
def enter (s : Semaphore φ) (a : φ) : Semaphore φ := { s with clients := s.clients ++ [a] }

/-- A client moves on. -/
def move (s : Semaphore φ) (i : Nat) (b : φ) : Semaphore φ :=
  { s with clients := s.clients.set i b }

/-- A client puts a token into the channel. -/
def take (s : Semaphore φ) (i : Nat) (b : φ) : Semaphore φ :=
  { tokens := s.tokens + 1, clients := s.clients.set i b }

/-- A client receives from the channel, which blocks while it is empty. -/
def give (s : Semaphore φ) (i : Nat) (b : φ) : Option (Semaphore φ) :=
  if 0 < s.tokens then some { tokens := s.tokens - 1, clients := s.clients.set i b } else none

/-- As many tokens as clients that hold one. -/
def Accounts (holds : φ → Bool) (s : Semaphore φ) : Prop := s.tokens = s.clients.countP holds

section Clients

variable (s : Semaphore φ) (i j : Nat) (a b : φ)

theorem getElem?_enter :
    (s.enter a).clients[j]? = if j = s.clients.length then some a else s.clients[j]? := by
  unfold enter
  rcases Nat.lt_trichotomy j s.clients.length with hlt | rfl | hgt
  · rw [List.getElem?_append_left hlt, if_neg (Nat.ne_of_lt hlt)]
  · simp
  · rw [if_neg (Nat.ne_of_gt hgt), List.getElem?_eq_none (Nat.le_of_lt hgt)]
    exact List.getElem?_eq_none (by simp; omega)

/-- Only the client that moves is seen to move. -/
theorem getElem?_set_of_some (h : s.clients[i]? = some a) :
    (s.clients.set i b)[j]? = if j = i then some b else s.clients[j]? := by
  rw [List.getElem?_set]
  by_cases hij : j = i
  · subst hij
    have hlt : j < s.clients.length := (List.getElem?_eq_some_iff.mp h).1
    simp [hlt]
  · rw [if_neg (Ne.symm hij), if_neg hij]

theorem clients_give {s' : Semaphore φ} (h : s.give i b = some s') :
    s'.clients = s.clients.set i b := by
  unfold give at h
  split at h
  · cases h
    rfl
  · exact nomatch h

end Clients

namespace Accounts

variable {holds : φ → Bool} {s : Semaphore φ} {i : Nat} {a b : φ}

theorem empty : Accounts holds (Semaphore.empty : Semaphore φ) := rfl

/-- A client that holds a token leaves one to be received. -/
theorem token (h : Accounts holds s) (hi : s.clients[i]? = some a) (ha : holds a = true) :
    0 < s.tokens := by
  rw [h, List.countP_pos_iff]
  exact ⟨a, List.mem_of_getElem? hi, ha⟩

theorem enter (h : Accounts holds s) (ha : holds a = false) : Accounts holds (s.enter a) := by
  unfold Accounts Semaphore.enter at *
  simp [h, ha]

theorem move (h : Accounts holds s) (hi : s.clients[i]? = some a) (hab : holds b = holds a) :
    Accounts holds (s.move i b) := by
  have hcount := List.countP_set_add holds b hi
  unfold Accounts Semaphore.move at *
  rw [hab] at hcount
  dsimp only
  omega

theorem take (h : Accounts holds s) (hi : s.clients[i]? = some a) (ha : holds a = false)
    (hb : holds b = true) : Accounts holds (s.take i b) := by
  have hcount := List.countP_set_add holds b hi
  unfold Accounts Semaphore.take at *
  simp only [ha, hb, if_true, Bool.false_eq_true, if_false] at hcount
  dsimp only
  omega

/-- Giving a token back never blocks. -/
theorem give (h : Accounts holds s) (hi : s.clients[i]? = some a) (ha : holds a = true)
    (hb : holds b = false) :
    s.give i b = some { tokens := s.tokens - 1, clients := s.clients.set i b } ∧
      Accounts holds { tokens := s.tokens - 1, clients := s.clients.set i b } := by
  have hcount := List.countP_set_add holds b hi
  have hpos := h.token hi ha
  refine ⟨if_pos hpos, ?_⟩
  unfold Accounts at *
  simp only [ha, hb, if_true, Bool.false_eq_true, if_false] at hcount
  dsimp only
  omega

end Accounts

/-! ## Admission -/

/-- One step of clients that arrive, are admitted or refused, and leave. -/
inductive Admission (holds : φ → Bool) (capacity : Nat) (arrived refused : φ)
    (s s' : Semaphore φ) : Prop
  | rest (h : s' = s)
  | arrive (h : s' = s.enter arrived)
  | grant (i : Nat) (b : φ) (hi : s.clients[i]? = some arrived) (hb : holds b = true)
      (hroom : s.tokens < capacity) (h : s' = s.take i b)
  | refuse (i : Nat) (hi : s.clients[i]? = some arrived) (hfull : capacity ≤ s.tokens)
      (h : s' = s.move i refused)
  | proceed (i : Nat) (a b : φ) (hi : s.clients[i]? = some a) (ha : holds a = true)
      (hb : holds b = true) (h : s' = s.move i b)
  | leave (i : Nat) (a b : φ) (hi : s.clients[i]? = some a) (ha : holds a = true)
      (hb : holds b = false) (hne : b ≠ refused) (h : s.give i b = some s')

namespace Admission

variable {holds : φ → Bool} {capacity : Nat} {arrived refused : φ} {s s' : Semaphore φ}

/-- The tokens stay accounted for, and within the capacity. -/
theorem accounts (harrived : holds arrived = false) (hrefused : holds refused = false)
    (hstep : Admission holds capacity arrived refused s s') (h : Accounts holds s)
    (hle : s.tokens ≤ capacity) : Accounts holds s' ∧ s'.tokens ≤ capacity := by
  cases hstep with
  | rest hs => rw [hs]; exact ⟨h, hle⟩
  | arrive hs => rw [hs]; exact ⟨h.enter harrived, hle⟩
  | grant i b hi hb hroom hs => rw [hs]; exact ⟨h.take hi harrived hb, hroom⟩
  | refuse i hi hfull hs => rw [hs]; exact ⟨h.move hi (hrefused.trans harrived.symm), hle⟩
  | proceed i a b hi ha hb hs => rw [hs]; exact ⟨h.move hi (hb.trans ha.symm), hle⟩
  | leave i a b hi ha hb hne hs =>
    obtain ⟨hgive, hacc⟩ := h.give hi ha hb
    cases hgive.symm.trans hs
    exact ⟨hacc, Nat.le_trans (Nat.sub_le _ _) hle⟩

/-- A client is refused when it has arrived and there is no room, and the channel
    is left alone. -/
theorem refused_of (hne : arrived ≠ refused) (hrefused : holds refused = false)
    (hstep : Admission holds capacity arrived refused s s') (j : Nat)
    (hj : s'.clients[j]? = some refused) :
    s.clients[j]? = some refused ∨
      (s.clients[j]? = some arrived ∧ capacity ≤ s.tokens ∧ s'.tokens = s.tokens) := by
  have hset : ∀ i a b, s.clients[i]? = some a → b ≠ refused →
      (s.clients.set i b)[j]? = some refused → s.clients[j]? = some refused := by
    intro i a b hi hb h
    rw [s.getElem?_set_of_some i j a b hi] at h
    split at h
    · exact absurd (Option.some.inj h) hb
    · exact h
  have hholds : ∀ b, holds b = true → b ≠ refused := by
    rintro b hb rfl
    exact Bool.false_ne_true (hrefused.symm.trans hb)
  cases hstep with
  | rest hs => rw [hs] at hj; exact .inl hj
  | arrive hs =>
    rw [hs, getElem?_enter] at hj
    split at hj
    · exact absurd (Option.some.inj hj) hne
    · exact .inl hj
  | grant i b hi hb hroom hs =>
    rw [hs] at hj
    exact .inl (hset i arrived b hi (hholds b hb) hj)
  | refuse i hi hfull hs =>
    rw [hs] at hj ⊢
    by_cases hij : j = i
    · subst hij
      exact .inr ⟨hi, hfull, rfl⟩
    · rw [move, s.getElem?_set_of_some i j arrived refused hi, if_neg hij] at hj
      exact .inl hj
  | proceed i a b hi ha hb hs =>
    rw [hs] at hj
    exact .inl (hset i a b hi (hholds b hb) hj)
  | leave i a b hi ha hb hne' hs =>
    rw [clients_give s i b hs] at hj
    exact .inl (hset i a b hi hne' hj)

/-- A refused client stays refused: it never takes a token, nor gives one back. -/
theorem refused_stays (hne : arrived ≠ refused) (hrefused : holds refused = false)
    (hstep : Admission holds capacity arrived refused s s') (j : Nat)
    (hj : s.clients[j]? = some refused) : s'.clients[j]? = some refused := by
  have hset : ∀ i a b, s.clients[i]? = some a → a ≠ refused →
      (s.clients.set i b)[j]? = some refused := by
    intro i a b hi ha
    rw [s.getElem?_set_of_some i j a b hi, if_neg]
    · exact hj
    · rintro rfl
      exact ha (Option.some.inj (hi.symm.trans hj))
  have hholds : ∀ a, holds a = true → a ≠ refused := by
    rintro a ha rfl
    exact Bool.false_ne_true (hrefused.symm.trans ha)
  cases hstep with
  | rest hs => rw [hs]; exact hj
  | arrive hs =>
    rw [hs, getElem?_enter, if_neg]
    · exact hj
    · rintro rfl
      rw [List.getElem?_eq_none (Nat.le_refl _)] at hj
      exact nomatch hj
  | grant i b hi hb hroom hs => rw [hs]; exact hset i arrived b hi hne
  | refuse i hi hfull hs => rw [hs]; exact hset i arrived refused hi hne
  | proceed i a b hi ha hb hs => rw [hs]; exact hset i a b hi (hholds a ha)
  | leave i a b hi ha hb hne' hs =>
    rw [clients_give s i b hs]
    exact hset i a b hi (hholds a ha)

end Admission

/-- What the discipline means for a channel; `next` are the channels one step later. -/
structure Limits (holds : φ → Bool) (capacity : Nat) (arrived refused : φ) (s : Semaphore φ)
    (next : Semaphore φ → Prop) : Prop where
  /-- one token for each client that holds one -/
  tokens : s.tokens = s.clients.countP holds
  bounded : s.tokens ≤ capacity
  /-- a client is refused when all tokens are taken, and the channel is left alone -/
  refusal : ∀ s', next s' → ∀ i : Nat, s'.clients[i]? = some refused →
    s.clients[i]? = some refused ∨
      (s.clients[i]? = some arrived ∧ s.tokens = capacity ∧ s'.tokens = s.tokens)
  refused_stays : ∀ s', next s' → ∀ i : Nat, s.clients[i]? = some refused →
    s'.clients[i]? = some refused

theorem Limits.of_admission {holds : φ → Bool} {capacity : Nat} {arrived refused : φ}
    {s : Semaphore φ} {next : Semaphore φ → Prop} (hne : arrived ≠ refused)
    (hrefused : holds refused = false) (h : Accounts holds s) (hle : s.tokens ≤ capacity)
    (hnext : ∀ s', next s' → Admission holds capacity arrived refused s s') :
    Limits holds capacity arrived refused s next where
  tokens := h
  bounded := hle
  refusal := by
    intro s' hs' i hi
    rcases (hnext s' hs').refused_of hne hrefused i hi with hold | ⟨ha, hfull, hsame⟩
    · exact .inl hold
    · exact .inr ⟨ha, Nat.le_antisymm hle hfull, hsame⟩
  refused_stays := fun s' hs' i hi => (hnext s' hs').refused_stays hne hrefused i hi

end Semaphore
