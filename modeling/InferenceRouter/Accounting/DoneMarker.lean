import InferenceRouter.Accounting.StreamContract

/-! The end marker of an event stream and the chunks it comes in. The wrapper
looks for the marker in the last chunk alone, so where that chunk begins decides
whether a body that is dropped early counts as completed. -/
namespace InferenceRouter

open Semantics

theorem mem_windows_iff {α : Type} {size : Nat} {w l : List α} :
    w ∈ windows size l ↔ w.length = size ∧ w <:+: l := by
  simp only [windows, List.mem_map, List.mem_range]
  constructor
  · rintro ⟨i, hi, rfl⟩
    refine ⟨by simp; omega, ?_⟩
    exact (List.take_prefix _ _).isInfix.trans (List.drop_suffix _ _).isInfix
  · rintro ⟨rfl, before, after, rfl⟩
    exact ⟨before.length, by simp; omega, by simp⟩

/-- `contains_done` finds the marker wherever it stands in a chunk. -/
theorem containsDone_iff {chunk : List UInt8} : containsDone chunk = true ↔ sseDone <:+: chunk := by
  simp only [containsDone, List.any_eq_true, decide_eq_true_eq]
  constructor
  · rintro ⟨w, hw, rfl⟩
    exact (mem_windows_iff.mp hw).2
  · exact fun h => ⟨sseDone, mem_windows_iff.mpr ⟨rfl, h⟩, rfl⟩

/-- The event `data: [DONE]` with the blank line after it. -/
def doneEvent : List UInt8 := "data: [DONE]\n\n".toUTF8.toList

/-- The marker stands in what follows the first `cut` bytes. -/
def DoneFrom (bytes : List UInt8) (cut : Nat) : Prop := sseDone <:+: bytes.drop cut

theorem sseDone_length : sseDone.length = 12 := by decide +kernel

theorem doneEvent_length : doneEvent.length = 14 := by decide +kernel

/-- The marker is not in the event without its first byte. -/
theorem not_infix_of_drop {n : Nat} (h : 0 < n) : ¬sseDone <:+: doneEvent.drop n := by
  intro hInfix
  have hLength := hInfix.length_le
  rw [List.length_drop, sseDone_length, doneEvent_length] at hLength
  have hSmall : n = 1 ∨ n = 2 := by omega
  rcases hSmall with rfl | rfl
  · exact absurd hInfix (by decide +kernel)
  · exact absurd hInfix (by decide +kernel)

/-- Bytes that end with the event carry the marker from every cut up to it. -/
theorem doneFrom_iff_of_event {bytes : List UInt8} (h : doneEvent <:+ bytes) (cut : Nat) :
    DoneFrom bytes cut ↔ cut + doneEvent.length ≤ bytes.length := by
  obtain ⟨before, rfl⟩ := h
  rw [DoneFrom, List.length_append, Nat.add_le_add_iff_right]
  constructor
  · intro hDone
    by_contra hLate
    rw [List.drop_append, List.drop_eq_nil_of_le (by omega), List.nil_append] at hDone
    exact not_infix_of_drop (by omega) hDone
  · intro hEarly
    rw [List.drop_append_of_le_length hEarly]
    have hMarker : sseDone <:+: doneEvent := by decide +kernel
    exact hMarker.trans (List.suffix_append _ _).isInfix

/-- Polls that forward `bytes`, in nonempty chunks and before the end of the stream. -/
structure Delivery (bytes : List UInt8) where
  answers : Nat → StreamPoll
  clocks : List DropClock
  unended : ∀ i < clocks.length, (answers i).isLast = false
  nonempty : ∀ chunk ∈ forwarded answers clocks.length, chunk ≠ []
  whole : (forwarded answers clocks.length).flatten = bytes

namespace Delivery

variable {bytes : List UInt8}

theorem forwarded_chunks (chunks : List (List UInt8)) :
    forwarded (fun i => .chunk (chunks.getD i [])) chunks.length = chunks := by
  have hBytes : (StreamPoll.bytes ∘ fun i => .chunk (chunks.getD i [])) =
      some ∘ fun i => chunks.getD i [] := rfl
  rw [forwarded, List.filterMap_map, hBytes, List.filterMap_eq_map]
  exact List.ext_getElem (by simp) fun i _ hi => by simp [hi]

/-- The delivery in given chunks, one at each poll. -/
def ofChunks (chunks : List (List UInt8)) (hNonempty : ∀ chunk ∈ chunks, chunk ≠ [])
    (hWhole : chunks.flatten = bytes) : Delivery bytes where
  answers i := .chunk (chunks.getD i [])
  clocks := List.replicate chunks.length ⟨0, 0⟩
  unended _ _ := rfl
  nonempty := by
    rw [List.length_replicate, forwarded_chunks]
    exact hNonempty
  whole := by
    rw [List.length_replicate, forwarded_chunks]
    exact hWhole

/-- The body when all has been forwarded. -/
def body (self : Delivery bytes) (status : StatusCode) (acc : RequestAccounting) : StreamBody :=
  (replay StreamBody.pollNext (.new status acc self.answers) self.clocks).2

/-- The outcome that is recorded if the client drops the body then. -/
def outcome (self : Delivery bytes) (status : StatusCode) (acc : RequestAccounting) : Outcome :=
  (self.body status acc).wrapper.dropOutcome acc

/-- Where the last chunk begins. -/
def lastCut (self : Delivery bytes) : Nat :=
  (forwarded self.answers self.clocks.length).dropLast.flatten.length

variable (self : Delivery bytes) (status : StatusCode) (acc : RequestAccounting)

theorem body_eq : self.body status acc = .live status acc self.answers self.clocks.length := by
  rw [body, StreamBody.replay_live _ self.unended]

theorem drop_body (clock : DropClock) :
    (self.body status acc).wrapper.drop clock = acc.finish (self.outcome status acc) clock := by
  refine AccountedStream.drop_eq ?_ clock
  rw [body_eq]
  rfl

/-- The last chunk carries the marker if it begins no later than some marker. -/
theorem doneLast_iff : doneLast self.answers self.clocks.length = true ↔ DoneFrom bytes self.lastCut := by
  have hWhole := self.whole
  rw [doneLast, DoneFrom, lastCut]
  rcases List.eq_nil_or_concat (forwarded self.answers self.clocks.length) with hNone | ⟨chunks, last, hChunks⟩
  · rw [hNone] at hWhole ⊢
    rw [← hWhole]
    have hEmpty : ¬sseDone <:+: [] := by decide +kernel
    simp [hEmpty]
  · rw [hChunks] at hWhole ⊢
    rw [← hWhole]
    simp [containsDone_iff]

theorem outcome_eq_completed_iff (hDefault : acc.outcome = .clientDisconnect) :
    self.outcome status acc = .completed status ↔ DoneFrom bytes self.lastCut := by
  rw [← doneLast_iff, outcome, body_eq, AccountedStream.dropOutcome, hDefault, StreamBody.live]
  split <;> simp_all

theorem outcome_cases (hDefault : acc.outcome = .clientDisconnect) :
    self.outcome status acc = .completed status ∨ self.outcome status acc = .clientDisconnect := by
  rw [outcome, AccountedStream.dropOutcome, hDefault]
  split
  · exact .inl (by rw [body_eq]; rfl)
  · exact .inr rfl

/-- Two deliveries of the same bytes are judged alike, and as completed where the
bytes end with the final event, exactly if the last chunks of both begin on one
side of the last marker, and in that case not behind its first byte. -/
theorem outcome_eq_iff (first second : Delivery bytes) (hDefault : acc.outcome = .clientDisconnect) :
    (first.outcome status acc = second.outcome status acc ∧
        (doneEvent <:+ bytes → first.outcome status acc = .completed status)) ↔
      ((DoneFrom bytes first.lastCut ↔ DoneFrom bytes second.lastCut) ∧
        (doneEvent <:+ bytes → first.lastCut + doneEvent.length ≤ bytes.length)) := by
  have hFirst := first.outcome_eq_completed_iff status acc hDefault
  have hSecond := second.outcome_eq_completed_iff status acc hDefault
  have hSame : first.outcome status acc = second.outcome status acc ↔
      (DoneFrom bytes first.lastCut ↔ DoneFrom bytes second.lastCut) := by
    rw [← hFirst, ← hSecond]
    rcases first.outcome_cases status acc hDefault with hLeft | hLeft <;>
      rcases second.outcome_cases status acc hDefault with hRight | hRight <;> simp [hLeft, hRight]
  rw [hSame, hFirst]
  refine and_congr_right fun _ => forall_congr' fun hEvent => ?_
  exact doneFrom_iff_of_event hEvent first.lastCut

/-- The final event in one chunk and in two, cut before its last byte. -/
theorem outcome_eq_iff_blank_line :
    let acc := (RequestAccounting.start 0 "round_robin" (1 / 10) .normal 0).2
    let whole : Delivery doneEvent := ofChunks [doneEvent] (by decide +kernel) (by decide +kernel)
    let cut : Delivery doneEvent :=
      ofChunks [doneEvent.take 13, doneEvent.drop 13] (by decide +kernel) (by decide +kernel)
    (whole.outcome ⟨200, by decide⟩ acc = cut.outcome ⟨200, by decide⟩ acc ∧
        (doneEvent <:+ doneEvent → whole.outcome ⟨200, by decide⟩ acc = .completed ⟨200, by decide⟩)) ↔
      ((DoneFrom doneEvent whole.lastCut ↔ DoneFrom doneEvent cut.lastCut) ∧
        (doneEvent <:+ doneEvent → whole.lastCut + doneEvent.length ≤ doneEvent.length)) := by
  intro acc whole cut
  exact outcome_eq_iff _ acc whole cut rfl

/-- A finished answer is recorded as left by its client when its final event
comes in two chunks, cut within the marker. -/
theorem outcome_of_cut_marker :
    let acc := (RequestAccounting.start 0 "round_robin" (1 / 10) .normal 0).2
    let whole : Delivery doneEvent := ofChunks [doneEvent] (by decide +kernel) (by decide +kernel)
    let cut : Delivery doneEvent :=
      ofChunks ["data: [DO".toUTF8.toList, "NE]\n\n".toUTF8.toList] (by decide +kernel) (by decide +kernel)
    cut.outcome ⟨200, by decide⟩ acc = .clientDisconnect ∧
      whole.outcome ⟨200, by decide⟩ acc ≠ cut.outcome ⟨200, by decide⟩ acc ∧
      ¬(doneEvent <:+ doneEvent → cut.outcome ⟨200, by decide⟩ acc = .completed ⟨200, by decide⟩) := by
  decide +kernel

end Delivery

end InferenceRouter
