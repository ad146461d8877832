import InferenceRouter.Accounting.Basic

/-! The wrapper around a backend's event stream that keeps the guard alive until
the last chunk. The inner stream is the environment: a poll of the wrapper comes
with the answer that a poll of the inner stream would give. -/
namespace InferenceRouter

/-- `slice::windows`, for a positive size. -/
def windows {α : Type} (size : Nat) (l : List α) : List (List α) :=
  (List.range (l.length + 1 - size)).map fun i => (l.drop i).take size

def sseDone : List UInt8 := "data: [DONE]".toUTF8.toList

def containsDone (chunk : List UInt8) : Bool := (windows sseDone.length chunk).any (· = sseDone)

/-- `Poll<Option<Result<Bytes, _>>>`. -/
inductive StreamPoll where
  | pending
  | chunk (bytes : List UInt8)
  | error (message : String)
  | ended
  deriving DecidableEq

structure AccountedStream where
  status : StatusCode
  accounting : Option RequestAccounting
  /-- The last forwarded chunk carried `data: [DONE]`. -/
  doneSeen : Bool

namespace AccountedStream

def new (status : StatusCode) (accounting : RequestAccounting) : AccountedStream where
  status := status
  accounting := some accounting
  doneSeen := false

/-- Drop the wrapper, and with it the guard it still has. -/
def drop (self : AccountedStream) (clock : DropClock) : List Effect :=
  match self.accounting with
  | some acc => if self.doneSeen then acc.finish (.completed self.status) clock else acc.drop clock
  | none => []

/-- Once the guard is gone the inner stream is not polled again. -/
def pollNext (self : AccountedStream) (inner : StreamPoll) (clock : DropClock) :
    StreamPoll × List Effect × AccountedStream :=
  match self.accounting with
  | none => (.ended, [], self)
  | some acc =>
      match inner with
      | .chunk bytes => (.chunk bytes, [], { self with doneSeen := containsDone bytes })
      | .error message =>
          (.error message, acc.finish .streamError clock, { self with accounting := none })
      | .ended => (.ended, acc.finish (.completed self.status) clock, { self with accounting := none })
      | .pending => (.pending, [], self)

/-- The outcome that the drop of the wrapper records. -/
def dropOutcome (self : AccountedStream) (acc : RequestAccounting) : Outcome :=
  if self.doneSeen then .completed self.status else acc.outcome

theorem drop_eq {self : AccountedStream} {acc : RequestAccounting} (h : self.accounting = some acc)
    (clock : DropClock) : self.drop clock = acc.finish (self.dropOutcome acc) clock := by
  simp only [drop, h, dropOutcome]
  split <;> rfl

/-- A poll keeps the guard and does nothing, or finishes it and lets it go. -/
theorem pollNext_cases {self : AccountedStream} {acc : RequestAccounting}
    (h : self.accounting = some acc) (inner : StreamPoll) (clock : DropClock) :
    ((self.pollNext inner clock).2.1 = [] ∧
      (self.pollNext inner clock).2.2.accounting = some acc ∧
      (self.pollNext inner clock).2.2.status = self.status) ∨
    ∃ outcome, (outcome = .streamError ∨ outcome = .completed self.status) ∧
      (self.pollNext inner clock).2.1 = acc.finish outcome clock ∧
      (self.pollNext inner clock).2.2.accounting = none := by
  simp only [pollNext, h]
  cases inner with
  | pending | chunk bytes => exact .inl ⟨rfl, by simp [h], rfl⟩
  | error message => exact .inr ⟨_, .inl rfl, rfl, rfl⟩
  | ended => exact .inr ⟨_, .inr rfl, rfl, rfl⟩

end AccountedStream

end InferenceRouter
