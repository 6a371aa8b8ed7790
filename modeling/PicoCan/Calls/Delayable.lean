/-!
# Delayable work items

A work item of a kernel work queue that can also be put off: its timeout may
be running, and it may stand in the queue. `schedule` leaves a pending item
alone, `reschedule` restarts its timeout, `cancel` takes it out of both. When
the timeout ends the item is queued, and when the queue reaches it, it is
taken out and its handler runs.
-/

namespace Calls

/-- Whether the timeout of a work item is running, and whether it is queued. -/
structure Delayable where
  delayed : Bool
  queued : Bool
deriving DecidableEq, Repr

namespace Delayable

def idle : Delayable := ⟨false, false⟩

/-- Queued or scheduled: the handler will run unless the item is cancelled. -/
def Pending (w : Delayable) : Prop := w.delayed = true ∨ w.queued = true

instance (w : Delayable) : Decidable w.Pending := inferInstanceAs (Decidable (_ ∨ _))

/-- Start the timeout, or join the queue at once when there is nothing to wait for. -/
def arm (w : Delayable) (delayMs : Nat) : Delayable :=
  if delayMs = 0 then { w with queued := true } else { w with delayed := true }

/-- `k_work_schedule`: nothing happens to an item that is pending already. -/
def schedule (w : Delayable) (delayMs : Nat) : Delayable :=
  if w.Pending then w else w.arm delayMs

/-- `k_work_reschedule`: a running timeout is replaced. -/
def reschedule (w : Delayable) (delayMs : Nat) : Delayable :=
  { w with delayed := false }.arm delayMs

/-- `k_work_cancel_delayable`. -/
def cancel (_ : Delayable) : Delayable := idle

/-- `k_work_submit` on an item without a timeout. -/
def submit (w : Delayable) : Delayable := { w with queued := true }

/-- The timeout ends. -/
def expire (w : Delayable) : Option Delayable :=
  if w.delayed then some ⟨false, true⟩ else none

/-- The queue reaches the item, and its handler is about to run. -/
def take (w : Delayable) : Option Delayable :=
  if w.queued then some { w with queued := false } else none

@[simp] theorem not_pending_idle : ¬ idle.Pending := by
  simp [Pending, idle]

@[simp] theorem cancel_eq_idle (w : Delayable) : w.cancel = idle := rfl

@[simp] theorem pending_arm (w : Delayable) (delayMs : Nat) : (w.arm delayMs).Pending := by
  unfold arm
  split
  · exact .inr rfl
  · exact .inl rfl

@[simp] theorem pending_schedule (w : Delayable) (delayMs : Nat) :
    (w.schedule delayMs).Pending := by
  unfold schedule
  split
  · assumption
  · exact pending_arm w delayMs

@[simp] theorem pending_reschedule (w : Delayable) (delayMs : Nat) :
    (w.reschedule delayMs).Pending := pending_arm _ delayMs

/-- Time alone loses no item. -/
theorem pending_expire {w w' : Delayable} (expired : w.expire = some w') : w'.Pending := by
  unfold expire at expired
  split at expired
  · exact Option.some.inj expired ▸ .inr rfl
  · exact nomatch expired

end Delayable

end Calls
