import InferenceRouter.Accounting.Stream
import InferenceRouter.Semantics.Run

/-! A streamed body as its consumer sees it: the wrapper together with the inner
stream that it polls. The wrapper passes on what the inner stream says up to its
end, then says that it is over, and settles its guard exactly once. -/
namespace InferenceRouter

open Semantics

namespace StreamPoll

/-- The stream has ended or failed. -/
def isLast : StreamPoll → Bool
  | .error _ | .ended => true
  | .pending | .chunk _ => false

def bytes : StreamPoll → Option (List UInt8)
  | .chunk bytes => some bytes
  | _ => none

end StreamPoll

/-- The backend's stream, with any answers: one for each time it is polled. -/
structure ByteStream where
  answers : Nat → StreamPoll
  polls : Nat

def ByteStream.pollNext (self : ByteStream) : StreamPoll × ByteStream :=
  (self.answers self.polls, { self with polls := self.polls + 1 })

/-- An `AccountedStream` with its `inner`. -/
structure StreamBody where
  wrapper : AccountedStream
  inner : ByteStream

/-- The chunks in the first `n` answers. -/
def forwarded (answers : Nat → StreamPoll) (n : Nat) : List (List UInt8) :=
  ((List.range n).map answers).filterMap StreamPoll.bytes

theorem forwarded_succ (answers : Nat → StreamPoll) (n : Nat) :
    forwarded answers (n + 1) = forwarded answers n ++ (answers n).bytes.toList := by
  rw [forwarded, List.range_succ, List.map_append, List.filterMap_append]
  cases h : (answers n).bytes <;> simp [forwarded, h]

/-- The last of the first `n` answers that is a chunk carries the end marker. -/
def doneLast (answers : Nat → StreamPoll) (n : Nat) : Bool :=
  (forwarded answers n).getLast?.any containsDone

/-- The verdict on a stream that ends with `last`. -/
def endOutcome (status : StatusCode) (last : StreamPoll) : Outcome :=
  match last with
  | .ended => .completed status
  | _ => .streamError

namespace StreamBody

def new (status : StatusCode) (acc : RequestAccounting) (answers : Nat → StreamPoll) : StreamBody where
  wrapper := .new status acc
  inner := ⟨answers, 0⟩

/-- `poll_next`, with the effects it has. Without a guard the inner stream is
left alone. -/
def pollNext (self : StreamBody) (clock : DropClock) : (StreamPoll × List Effect) × StreamBody :=
  match self.wrapper.accounting with
  | none => ((.ended, []), self)
  | some _ =>
      let (answer, inner) := self.inner.pollNext
      let (output, effects, wrapper) := self.wrapper.pollNext answer clock
      ((output, effects), { wrapper, inner })

/-- The body after `n` answers, none of them the last. -/
def live (status : StatusCode) (acc : RequestAccounting) (answers : Nat → StreamPoll) (n : Nat) :
    StreamBody where
  wrapper := ⟨status, some acc, doneLast answers n⟩
  inner := ⟨answers, n⟩

variable {status : StatusCode} {acc : RequestAccounting} {answers : Nat → StreamPoll} {n : Nat}

/-- Before the end a poll passes the answer on and does nothing else. -/
theorem pollNext_live (h : (answers n).isLast = false) (clock : DropClock) :
    (live status acc answers n).pollNext clock = ((answers n, []), live status acc answers (n + 1)) := by
  cases hAnswer : answers n with
  | pending =>
      simp [pollNext, live, ByteStream.pollNext, AccountedStream.pollNext, hAnswer, doneLast,
        forwarded_succ, StreamPoll.bytes]
  | chunk bytes =>
      simp [pollNext, live, ByteStream.pollNext, AccountedStream.pollNext, hAnswer, doneLast,
        forwarded_succ, StreamPoll.bytes]
  | error message | ended => simp [hAnswer, StreamPoll.isLast] at h

/-- The poll that sees the end passes it on and finishes the guard. -/
theorem pollNext_last (h : (answers n).isLast = true) (clock : DropClock) :
    (live status acc answers n).pollNext clock =
      ((answers n, acc.finish (endOutcome status (answers n)) clock),
        { wrapper := ⟨status, none, doneLast answers n⟩, inner := ⟨answers, n + 1⟩ }) := by
  cases hAnswer : answers n with
  | pending | chunk bytes => simp [hAnswer, StreamPoll.isLast] at h
  | error message | ended =>
      simp [pollNext, live, ByteStream.pollNext, AccountedStream.pollNext, hAnswer, endOutcome]

theorem replay_live (clocks : List DropClock) (h : ∀ i < clocks.length, (answers i).isLast = false) :
    replay pollNext (new status acc answers) clocks =
      ((List.range clocks.length).map fun i => (answers i, []), live status acc answers clocks.length) := by
  induction clocks using List.reverseRecOn with
  | nil => rfl
  | append_singleton clocks clock ih =>
      rw [List.length_append, List.length_singleton] at h ⊢
      rw [replay_append, ih fun i hi => h i (by omega)]
      have hPoll : (live status acc answers clocks.length).pollNext clock = _ :=
        pollNext_live (h clocks.length (by omega)) clock
      simp only [replay, hPoll, List.range_succ, List.map_append, List.map_singleton]

/-- Once the guard is gone, every poll says that the stream is over. -/
theorem replay_over {body : StreamBody} (h : body.wrapper.accounting = none) (clocks : List DropClock) :
    replay pollNext body clocks = (clocks.map fun _ => (.ended, []), body) := by
  induction clocks with
  | nil => rfl
  | cons clock clocks ih =>
      have hPoll : body.pollNext clock = ((.ended, []), body) := by simp [pollNext, h]
      simp only [replay, hPoll, ih, List.map_cons]

theorem drop_live (hDefault : acc.outcome = .clientDisconnect) (clock : DropClock) :
    (live status acc answers n).wrapper.drop clock =
      acc.finish (if doneLast answers n then .completed status else .clientDisconnect) clock := by
  rw [AccountedStream.drop_eq rfl, AccountedStream.dropOutcome, hDefault]
  rfl

/-- The polls from the one that sees the end on. -/
theorem replay_last {clocks : List DropClock} (h : n < clocks.length)
    (hLive : ∀ i < n, (answers i).isLast = false) (hLast : (answers n).isLast = true) :
    replay pollNext (new status acc answers) clocks =
      (((List.range n).map fun i => (answers i, [])) ++
        (answers n, acc.finish (endOutcome status (answers n)) clocks[n]) ::
          List.replicate (clocks.length - (n + 1)) (.ended, []),
        { wrapper := ⟨status, none, doneLast answers n⟩, inner := ⟨answers, n + 1⟩ }) := by
  have hSplit : clocks = clocks.take n ++ clocks[n] :: clocks.drop (n + 1) := by
    rw [← List.drop_eq_getElem_cons h, List.take_append_drop]
  have hTake : (clocks.take n).length = n := List.length_take_of_le h.le
  have hBefore : replay pollNext (new status acc answers) (clocks.take n) = _ :=
    replay_live (clocks.take n) (hTake.symm ▸ hLive)
  rw [hTake] at hBefore
  have hPoll : (live status acc answers n).pollNext clocks[n] = _ := pollNext_last hLast clocks[n]
  conv_lhs => rw [hSplit]
  rw [replay_append, hBefore]
  simp only [replay, hPoll]
  rw [replay_over rfl]
  simp only [List.map_const', List.length_drop]

/-- The wrapper is transparent, fused and settles its guard once. Either the
inner stream is still running, all its answers have been passed on, and the drop
gives the verdict; or some answer was the last, it was passed on with the verdict,
the inner stream was not polled again, and every poll since said that it is over.
The guard is untouched until then, and all effects together are those of one finish. -/
theorem transparent_fused (status : StatusCode) (acc : RequestAccounting) (answers : Nat → StreamPoll)
    (clocks : List DropClock) (clock : DropClock) (hDefault : acc.outcome = .clientDisconnect) :
    let run := replay pollNext (new status acc answers) clocks
    ((∀ i < clocks.length, (answers i).isLast = false) ∧
        run.1 = ((List.range clocks.length).map fun i => (answers i, [])) ∧
        run.2.inner.polls = clocks.length ∧ run.2.wrapper.accounting = some acc ∧
        run.2.wrapper.drop clock =
          acc.finish (if doneLast answers clocks.length then .completed status else .clientDisconnect) clock ∨
      ∃ n, ∃ _ : n < clocks.length, (∀ i < n, (answers i).isLast = false) ∧ (answers n).isLast = true ∧
        run.1 = ((List.range n).map fun i => (answers i, [])) ++
          (answers n, acc.finish (endOutcome status (answers n)) clocks[n]) ::
            List.replicate (clocks.length - (n + 1)) (.ended, []) ∧
        run.2.inner.polls = n + 1 ∧ run.2.wrapper.accounting = none ∧ run.2.wrapper.drop clock = []) ∧
    ∃ outcome settledAt, run.1.flatMap Prod.snd ++ run.2.wrapper.drop clock = acc.finish outcome settledAt := by
  intro run
  have hQuiet (n : Nat) :
      ((List.range n).map fun i => (answers i, ([] : List Effect))).flatMap Prod.snd = [] := by simp
  by_cases hEnds : ∃ n, n < clocks.length ∧ (answers n).isLast = true
  · obtain ⟨h, hLast⟩ := Nat.find_spec hEnds
    have hLive : ∀ i < Nat.find hEnds, (answers i).isLast = false := by
      intro i hi
      have hMin := Nat.find_min hEnds hi
      rw [not_and, Bool.not_eq_true] at hMin
      exact hMin (hi.trans h)
    generalize Nat.find hEnds = n at h hLast hLive
    have hRun : run = _ := replay_last h hLive hLast
    refine ⟨.inr ⟨n, h, hLive, hLast, by rw [hRun], ?_, ?_, ?_⟩, endOutcome status (answers n), clocks[n], ?_⟩
    all_goals simp only [hRun, AccountedStream.drop, List.flatMap_append, hQuiet]
    simp
  · have hLive : ∀ i < clocks.length, (answers i).isLast = false := by
      intro i hi
      rw [← Bool.not_eq_true]
      exact fun hLast => hEnds ⟨i, hi, hLast⟩
    have hRun : run = _ := replay_live clocks hLive
    refine ⟨.inl ⟨hLive, by rw [hRun], ?_, ?_, ?_⟩,
      if doneLast answers clocks.length then .completed status else .clientDisconnect, clock, ?_⟩
    all_goals simp only [hRun, hQuiet, List.nil_append, drop_live hDefault]
    · rfl
    · rfl

/-- A stream that waits, sends one chunk and breaks, is polled five times. -/
theorem transparent_fused_error :
    let acc := (RequestAccounting.start 0 "round_robin" (1 / 10) .normal 0).2
    let answers (i : Nat) : StreamPoll := [.pending, .chunk [97], .error "reset"].getD i .pending
    let run := replay pollNext (new ⟨200, by decide⟩ acc answers) (List.replicate 5 ⟨7, 7⟩)
    run.1.map Prod.fst = [.pending, .chunk [97], .error "reset", .ended, .ended] ∧
      run.2.inner.polls = 3 ∧
      ∃ outcome settledAt, run.1.flatMap Prod.snd ++ run.2.wrapper.drop ⟨9, 9⟩ = acc.finish outcome settledAt := by
  intro acc answers run
  exact ⟨by decide, by decide, (transparent_fused _ acc answers _ ⟨9, 9⟩ rfl).2⟩

end StreamBody

end InferenceRouter
