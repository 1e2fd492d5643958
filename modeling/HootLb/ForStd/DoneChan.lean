import HootLb.ForStd.List

/-!
# Channels that are only closed

A channel on which nothing is sent. A receive from it is possible once it is closed, and
closing it again is a fault; so a channel is known by how often it was closed.

Several parties may be able to close a channel, each at most once and each knowing when
it has done so. The channel is accounted for when it was closed as often as there are
parties that have closed it.
-/

/-- A channel, by the number of times it was closed. -/
structure DoneChan where
  closes : Nat
  deriving DecidableEq

namespace DoneChan

def opened : DoneChan := { closes := 0 }

def close (c : DoneChan) : DoneChan := { closes := c.closes + 1 }

/-- A receive does not block. -/
def isClosed (c : DoneChan) : Bool := 0 < c.closes

@[simp] theorem closes_opened : opened.closes = 0 := rfl

@[simp] theorem closes_close (c : DoneChan) : c.close.closes = c.closes + 1 := rfl

theorem isClosed_iff (c : DoneChan) : c.isClosed ↔ 0 < c.closes := by simp [isClosed]

theorem isClosed_eq_false_iff (c : DoneChan) : c.isClosed = false ↔ c.closes = 0 := by
  simp [isClosed]

/-- The channel was closed by those who have closed it. -/
def Accounts {φ : Type} (hasClosed : φ → Bool) (c : DoneChan) (parties : List φ) : Prop :=
  c.closes = parties.countP hasClosed

namespace Accounts

variable {φ : Type} {hasClosed : φ → Bool} {c : DoneChan} {parties : List φ} {k : Nat} {a b : φ}

theorem start (hasClosed : φ → Bool) : Accounts hasClosed opened [] := rfl

/-- A party that has closed nothing yet joins. -/
theorem join (h : Accounts hasClosed c parties) (ha : hasClosed a = false) :
    Accounts hasClosed c (parties ++ [a]) := by
  unfold Accounts at h ⊢
  rw [List.countP_append, h]
  simp [ha]

/-- A party moves on without closing the channel. -/
theorem move (h : Accounts hasClosed c parties) (hk : parties[k]? = some a)
    (hsame : hasClosed b = hasClosed a) : Accounts hasClosed c (parties.set k b) := by
  have hcount := List.countP_set_add hasClosed b hk
  unfold Accounts at h ⊢
  rw [hsame] at hcount
  omega

/-- A party closes the channel as it moves on. -/
theorem closes (h : Accounts hasClosed c parties) (hk : parties[k]? = some a)
    (ha : hasClosed a = false) (hb : hasClosed b) :
    Accounts hasClosed c.close (parties.set k b) := by
  have hcount := List.countP_set_add hasClosed b hk
  unfold Accounts at h ⊢
  rw [ha, hb] at hcount
  simp only [Bool.false_eq_true, if_false, if_true] at hcount
  rw [closes_close]
  omega

end Accounts

end DoneChan
