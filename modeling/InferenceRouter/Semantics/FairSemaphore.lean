import Mathlib.Data.List.Count
import Mathlib.Data.List.Nodup
import Mathlib.Data.List.Pairwise
import Mathlib.Logic.Function.Iterate
import Mathlib.Order.Basic

/-! A semaphore that serves its waiters in the order they came. A permit is handed
over to a waiter, which takes it up later and may give up at any time before.
Nothing here refers to a particular program. -/
namespace Semantics

universe u

/-- Where a waiter stands that was not resumed yet. -/
inductive Future where
  | pending
  | granted
  | cancelled
  deriving DecidableEq

/-- The free permits, and the waiters, oldest first. -/
@[ext] structure FairSemaphore (α : Type u) where
  value : Nat
  waiters : List (α × Future)
  deriving DecidableEq

namespace FairSemaphore

variable {α : Type u}

/-- The number of waiters that stand somewhere. -/
def count (future : Future) (waiters : List (α × Future)) : Nat := waiters.countP fun w => w.2 = future

@[simp] theorem count_nil (future : Future) : count future ([] : List (α × Future)) = 0 := rfl

@[simp] theorem count_cons (future : Future) (w : α × Future) (waiters : List (α × Future)) :
    count future (w :: waiters) = count future waiters + if w.2 = future then 1 else 0 := by
  simp [count, List.countP_cons]

@[simp] theorem count_append (future : Future) (left right : List (α × Future)) :
    count future (left ++ right) = count future left + count future right := by
  simp [count]

def new (value : Nat) : FairSemaphore α where
  value := value
  waiters := []

/-- Who waits, oldest first. -/
def queue (self : FairSemaphore α) : List α := self.waiters.map Prod.fst

/-- Nobody may take a permit past a waiter. -/
def locked (self : FairSemaphore α) : Bool :=
  self.value = 0 || self.waiters.any fun w => w.2 ≠ .cancelled

/-- The first waiter that has no answer yet is granted a permit. -/
def grantFirst : List (α × Future) → Option (List (α × Future))
  | [] => none
  | (a, .pending) :: waiters => some ((a, .granted) :: waiters)
  | w :: waiters => (grantFirst waiters).map fun waiters => w :: waiters

def wakeUpNext (self : FairSemaphore α) : FairSemaphore α :=
  match grantFirst self.waiters with
  | some waiters => ⟨self.value - 1, waiters⟩
  | none => self

/-- A permit at once, or a place at the end of the queue. -/
def acquire (self : FairSemaphore α) (a : α) : Bool × FairSemaphore α :=
  if self.locked then (false, { self with waiters := self.waiters ++ [(a, .pending)] })
  else (true, { self with value := self.value - 1 })

def release (self : FairSemaphore α) : FairSemaphore α :=
  wakeUpNext { self with value := self.value + 1 }

section Operations

variable [DecidableEq α]

def isPending (self : FairSemaphore α) (a : α) : Bool := self.waiters.any fun w => w.1 = a ∧ w.2 = .pending

def isGranted (self : FairSemaphore α) (a : α) : Bool := self.waiters.any fun w => w.1 = a ∧ w.2 = .granted

/-- A waiter without an answer yet gives up. -/
def cancel (self : FairSemaphore α) (a : α) : FairSemaphore α :=
  { self with
    waiters := self.waiters.map fun w => if w.1 = a ∧ w.2 = .pending then (a, .cancelled) else w }

def leave (self : FairSemaphore α) (a : α) : FairSemaphore α :=
  { self with waiters := self.waiters.eraseP fun w => w.1 = a }

/-- A waiter goes on with the permit it was granted. Others may have had to wait
only because it came before them. -/
def resume (self : FairSemaphore α) (a : α) : FairSemaphore α :=
  let self := self.leave a
  if 0 < self.value then self.wakeUpNext else self

/-- A waiter that gave up goes on, and passes on a permit that it was granted meanwhile. -/
def unwind (self : FairSemaphore α) (a : α) : FairSemaphore α :=
  if (a, .granted) ∈ self.waiters then (self.leave a).release else self.leave a

end Operations

/-- What is known of a semaphore for `permits` permits while `held` of them are held:
none is lost, nobody is left waiting for a free one, and the first come is the first served. -/
structure Sound (permits held : Nat) (s : FairSemaphore α) : Prop where
  total : s.value + count .granted s.waiters + held = permits
  prompt : s.value = 0 ∨ count .pending s.waiters = 0 ∨ 0 < count .granted s.waiters
  fifo : s.waiters.Pairwise fun earlier later => earlier.2 = .pending → later.2 ≠ .granted

theorem sound_new (permits : Nat) : Sound permits 0 (new permits : FairSemaphore α) :=
  ⟨rfl, .inr (.inl rfl), .nil⟩

theorem count_eq_zero_iff {future : Future} {waiters : List (α × Future)} :
    count future waiters = 0 ↔ ∀ w ∈ waiters, w.2 ≠ future := by
  simp [count, List.countP_eq_zero]

theorem grantFirst_eq_none_iff {waiters : List (α × Future)} :
    grantFirst waiters = none ↔ count .pending waiters = 0 := by
  induction waiters with
  | nil => exact iff_of_true rfl rfl
  | cons w waiters ih =>
      obtain ⟨a, future⟩ := w
      cases future <;> simp [grantFirst, ih]

/-- One waiter moves from pending to granted, and no waiter before it is pending. -/
theorem grantFirst_cases {waiters waiters' : List (α × Future)} (h : grantFirst waiters = some waiters') :
    ∃ before a after, waiters = before ++ (a, .pending) :: after ∧ count .pending before = 0 ∧
      waiters' = before ++ (a, .granted) :: after := by
  induction waiters generalizing waiters' with
  | nil => cases h
  | cons w waiters ih =>
      obtain ⟨a, future⟩ := w
      have hLater (hOther : future ≠ .pending) (hRest : (grantFirst waiters).map ((a, future) :: ·) = some waiters') :
          ∃ before b after, (a, future) :: waiters = before ++ (b, .pending) :: after ∧
            count .pending before = 0 ∧ waiters' = before ++ (b, .granted) :: after := by
        obtain ⟨rest, hGrant, rfl⟩ := Option.map_eq_some_iff.mp hRest
        obtain ⟨before, b, after, rfl, hBefore, rfl⟩ := ih hGrant
        exact ⟨(a, future) :: before, b, after, rfl, by simp [hBefore, hOther], rfl⟩
      cases future with
      | pending => exact ⟨[], a, waiters, rfl, rfl, (Option.some.inj h).symm⟩
      | granted => exact hLater (by decide) h
      | cancelled => exact hLater (by decide) h

theorem wakeUpNext_cases (self : FairSemaphore α) :
    (count .pending self.waiters = 0 ∧ self.wakeUpNext = self) ∨
    (∃ before a after, self.waiters = before ++ (a, .pending) :: after ∧ count .pending before = 0 ∧
      self.wakeUpNext = ⟨self.value - 1, before ++ (a, .granted) :: after⟩) := by
  unfold wakeUpNext
  cases hGrant : grantFirst self.waiters with
  | none => exact .inl ⟨grantFirst_eq_none_iff.mp hGrant, rfl⟩
  | some waiters =>
      obtain ⟨before, a, after, hWaiters, hBefore, rfl⟩ := grantFirst_cases hGrant
      exact .inr ⟨before, a, after, hWaiters, hBefore, rfl⟩

@[simp] theorem queue_wakeUpNext (self : FairSemaphore α) : self.wakeUpNext.queue = self.queue := by
  obtain ⟨-, hSame⟩ | ⟨before, a, after, hWaiters, -, hNext⟩ := self.wakeUpNext_cases
  · rw [hSame]
  · rw [hNext, queue, queue, hWaiters]
    simp

@[simp] theorem queue_release (self : FairSemaphore α) : self.release.queue = self.queue := by
  rw [release, queue_wakeUpNext]
  rfl

theorem queue_acquire (self : FairSemaphore α) (a : α) :
    (self.acquire a).2.queue = self.queue ++ if (self.acquire a).1 then [] else [a] := by
  unfold acquire
  split <;> simp [queue]

theorem not_locked_iff {self : FairSemaphore α} :
    ¬ self.locked = true ↔ 0 < self.value ∧ ∀ w ∈ self.waiters, w.2 = .cancelled := by
  simp only [locked, Bool.or_eq_true, decide_eq_true_eq, List.any_eq_true, not_or, not_exists, not_and, not_not,
    Nat.pos_iff_ne_zero, Ne]

variable {self : FairSemaphore α} {permits held : Nat} {a : α} {future : Future}

/-- A permit that becomes free goes to whoever waits for one. -/
theorem sound_wakeUpNext (hFree : 0 < self.value)
    (hTotal : self.value + count .granted self.waiters + held = permits)
    (hFifo : self.waiters.Pairwise fun earlier later => earlier.2 = .pending → later.2 ≠ .granted) :
    Sound permits held self.wakeUpNext := by
  obtain ⟨hNone, hSame⟩ | ⟨before, a, after, hWaiters, hBefore, hNext⟩ := self.wakeUpNext_cases
  · rw [hSame]
    exact ⟨hTotal, .inr (.inl hNone), hFifo⟩
  · rw [hWaiters] at hTotal hFifo
    rw [hNext]
    rw [List.pairwise_append, List.pairwise_cons] at hFifo
    obtain ⟨hFirst, ⟨-, hLast⟩, hAcross⟩ := hFifo
    refine ⟨?_, .inr (.inr ?_), ?_⟩
    · simp at hTotal ⊢
      omega
    · simp only [count_append, count_cons, if_true]
      omega
    · refine List.pairwise_append.mpr ⟨hFirst, List.pairwise_cons.mpr ⟨fun _ _ => Future.noConfusion, hLast⟩, ?_⟩
      intro earlier hEarlier later hLater hPending
      exact absurd hPending (count_eq_zero_iff.mp hBefore earlier hEarlier)

/-- Nobody becomes pending by what others do. -/
theorem pending_of_wakeUpNext (h : (a, .pending) ∈ self.wakeUpNext.waiters) : (a, .pending) ∈ self.waiters := by
  obtain ⟨-, hSame⟩ | ⟨before, b, after, hWaiters, -, hNext⟩ := self.wakeUpNext_cases
  · rwa [hSame] at h
  · rw [hNext, List.mem_append, List.mem_cons] at h
    rw [hWaiters, List.mem_append, List.mem_cons]
    rcases h with hBefore | hHere | hAfter
    · exact .inl hBefore
    · cases hHere
    · exact .inr (.inr hAfter)

theorem pending_of_release (h : (a, .pending) ∈ self.release.waiters) : (a, .pending) ∈ self.waiters := by
  have hMem : (a, Future.pending) ∈ FairSemaphore.waiters { self with value := self.value + 1 } :=
    pending_of_wakeUpNext h
  exact hMem

theorem pending_of_acquire {b : α} (h : (b, .pending) ∈ (self.acquire a).2.waiters) :
    (b, .pending) ∈ self.waiters ∨ b = a := by
  unfold FairSemaphore.acquire at h
  split at h
  · rw [List.mem_append, List.mem_singleton, Prod.mk.injEq] at h
    exact h.imp_right And.left
  · exact .inl h

/-- A permit at once is only for who does not pass anybody. -/
theorem not_pending_of_acquire {b : α} (h : (self.acquire a).1 = true) : (b, .pending) ∉ (self.acquire a).2.waiters := by
  unfold FairSemaphore.acquire at h ⊢
  split at h
  · cases h
  · rename_i hFree
    rw [if_neg hFree]
    exact fun hMem => Future.noConfusion ((not_locked_iff.mp hFree).2 _ hMem)

/-- If the queue stands in the order of arrival, who is granted came before who is not. -/
theorem Sound.lt_of_granted [Preorder α] {b : α} (h : Sound permits held self)
    (hQueue : self.queue.Pairwise (· < ·)) (hPending : (a, .pending) ∈ self.waiters)
    (hGranted : (b, .granted) ∈ self.waiters) : b < a := by
  have hBoth := h.fifo.and (List.pairwise_map.mp hQueue)
  have hEither : self.waiters.Pairwise fun v w =>
      (v.2 = .pending → w.2 = .granted → w.1 < v.1) ∧ (w.2 = .pending → v.2 = .granted → v.1 < w.1) :=
    hBoth.imp fun {v w} hOrder =>
      ⟨fun hv hw => absurd hw (hOrder.1 hv), fun _ _ => hOrder.2⟩
  have : Std.Symm fun v w : α × Future =>
      (v.2 = .pending → w.2 = .granted → w.1 < v.1) ∧ (w.2 = .pending → v.2 = .granted → v.1 < w.1) :=
    ⟨fun _ _ hOrder => ⟨hOrder.2, hOrder.1⟩⟩
  have hSelf : ∀ w ∈ self.waiters,
      (w.2 = .pending → w.2 = .granted → w.1 < w.1) ∧ (w.2 = .pending → w.2 = .granted → w.1 < w.1) :=
    fun w _ => ⟨fun hv hw => Future.noConfusion (hv.symm.trans hw), fun hv hw => Future.noConfusion (hv.symm.trans hw)⟩
  exact (List.Pairwise.forall_of_forall hSelf hEither hPending hGranted).1 rfl rfl

theorem Sound.release (h : Sound permits (held + 1) self) : Sound permits held self.release := by
  refine sound_wakeUpNext (Nat.succ_pos _) ?_ h.fifo
  have hTotal := h.total
  dsimp only
  omega

/-- A permit is added. -/
theorem Sound.supply (h : Sound permits held self) : Sound (permits + 1) held self.release := by
  have hHeld : Sound (permits + 1) (held + 1) self := ⟨by have := h.total; omega, h.prompt, h.fifo⟩
  exact hHeld.release

theorem Sound.supply_iterate (h : Sound permits held self) (n : Nat) :
    Sound (permits + n) held (FairSemaphore.release^[n] self) := by
  induction n with
  | zero => exact h
  | succ n ih =>
      rw [Function.iterate_succ_apply']
      exact ih.supply

theorem queue_release_iterate (self : FairSemaphore α) (n : Nat) :
    (FairSemaphore.release^[n] self).queue = self.queue := by
  induction n with
  | zero => rfl
  | succ n ih => rw [Function.iterate_succ_apply', queue_release, ih]

theorem Sound.acquire (h : Sound permits held self) (a : α) :
    Sound permits (if (self.acquire a).1 then held + 1 else held) (self.acquire a).2 := by
  obtain ⟨hTotal, hPrompt, hFifo⟩ := h
  unfold FairSemaphore.acquire
  by_cases hLocked : self.locked = true
  · rw [if_pos hLocked]
    refine ⟨by simpa using hTotal, ?_, ?_⟩
    · simp only [locked, Bool.or_eq_true, decide_eq_true_eq, List.any_eq_true] at hLocked
      rcases hLocked with hZero | ⟨w, hMem, hAlive⟩
      · exact .inl hZero
      · rcases hPrompt with hZero | hNone | hGranted
        · exact .inl hZero
        · refine .inr (.inr ?_)
          have hNotPending := count_eq_zero_iff.mp hNone w hMem
          have hIs : w.2 = .granted := by
            cases hFuture : w.2 <;> simp_all
          rw [Nat.pos_iff_ne_zero, count_append, Ne, Nat.add_eq_zero_iff, count_eq_zero_iff]
          exact fun hNo => hNo.1 w hMem hIs
        · refine .inr (.inr ?_)
          rw [count_append]
          omega
    · refine List.pairwise_append.mpr ⟨hFifo, List.pairwise_singleton _ _, ?_⟩
      rintro earlier - later hLater -
      rw [List.mem_singleton.mp hLater]
      exact Future.noConfusion
  · rw [if_neg hLocked]
    obtain ⟨hFree, hGone⟩ := not_locked_iff.mp hLocked
    refine ⟨?_, .inr (.inl ?_), hFifo⟩
    · dsimp only
      rw [if_pos rfl]
      omega
    · rw [count_eq_zero_iff]
      intro w hMem hPending
      exact absurd ((hGone w hMem).symm.trans hPending) (by decide)

/-- A waiter stands in one place. -/
theorem future_unique {future' : Future} (hNodup : self.queue.Nodup) (h : (a, future) ∈ self.waiters)
    (h' : (a, future') ∈ self.waiters) : future = future' :=
  congrArg Prod.snd (List.inj_on_of_nodup_map hNodup h h' rfl)

/-- While nobody holds a permit, some waiter has its answer. -/
theorem Sound.exists_answered (h : Sound permits 0 self) (hPermits : 0 < permits) (hWaits : self.waiters ≠ []) :
    ∃ w ∈ self.waiters, w.2 ≠ .pending := by
  by_contra hNone
  push Not at hNone
  obtain ⟨hTotal, hPrompt, -⟩ := h
  have hGranted : count .granted self.waiters = 0 :=
    count_eq_zero_iff.mpr fun w hMem hIs => absurd ((hNone w hMem).symm.trans hIs) Future.noConfusion
  obtain ⟨first, hFirst⟩ := List.exists_mem_of_ne_nil _ hWaits
  have hPending : count .pending self.waiters ≠ 0 := fun hZero =>
    count_eq_zero_iff.mp hZero first hFirst (hNone first hFirst)
  omega

section Waiter

variable [DecidableEq α]

@[simp] theorem isPending_iff : self.isPending a = true ↔ (a, .pending) ∈ self.waiters := by
  simp [isPending, Prod.exists]

@[simp] theorem isGranted_iff : self.isGranted a = true ↔ (a, .granted) ∈ self.waiters := by
  simp [isGranted, Prod.exists]

/-- A waiter and the others. -/
theorem leave_eq (hMem : (a, future) ∈ self.waiters) (hNodup : self.queue.Nodup) :
    ∃ before after, self.waiters = before ++ (a, future) :: after ∧
      self.leave a = ⟨self.value, before ++ after⟩ := by
  obtain ⟨before, after, hWaiters⟩ := List.append_of_mem hMem
  refine ⟨before, after, hWaiters, ?_⟩
  rw [queue, hWaiters, List.map_append, List.map_cons, List.nodup_middle, List.nodup_cons,
    List.mem_append, not_or] at hNodup
  have hFirst : ∀ w ∈ before, ¬ decide (w.1 = a) = true := fun w hw hEq =>
    hNodup.1.1 (List.mem_map.mpr ⟨w, hw, of_decide_eq_true hEq⟩)
  rw [leave, hWaiters, List.eraseP_append_right _ hFirst]
  simp

theorem count_leave (hMem : (a, future) ∈ self.waiters) (hNodup : self.queue.Nodup) (which : Future) :
    count which (self.leave a).waiters + (if future = which then 1 else 0) = count which self.waiters := by
  obtain ⟨before, after, hWaiters, hLeave⟩ := leave_eq hMem hNodup
  rw [hLeave, hWaiters, count_append, count_append, count_cons]
  dsimp only
  omega

@[simp] theorem leave_value (self : FairSemaphore α) (a : α) : (self.leave a).value = self.value := rfl

theorem queue_leave (self : FairSemaphore α) (a : α) : (self.leave a).queue = self.queue.erase a := by
  unfold leave queue
  induction self.waiters with
  | nil => rfl
  | cons w waiters ih =>
      by_cases hSame : w.1 = a
      · simp [hSame]
      · rw [List.eraseP_cons_of_neg (by simpa using hSame), List.map_cons, List.map_cons,
          List.erase_cons_tail (by simpa using hSame), ih]

@[simp] theorem queue_resume (self : FairSemaphore α) (a : α) : (self.resume a).queue = self.queue.erase a := by
  rw [← queue_leave]
  unfold resume
  dsimp only
  split
  · rw [queue_wakeUpNext]
  · rfl

@[simp] theorem queue_unwind (self : FairSemaphore α) (a : α) : (self.unwind a).queue = self.queue.erase a := by
  rw [← queue_leave]
  unfold unwind
  split
  · rw [queue_release]
  · rfl

@[simp] theorem queue_cancel (self : FairSemaphore α) (a : α) : (self.cancel a).queue = self.queue := by
  unfold cancel queue
  rw [List.map_map]
  refine List.map_congr_left fun w hMem => ?_
  rw [Function.comp_apply]
  split
  · rename_i hIs
    exact hIs.1.symm
  · rfl

theorem Sound.resume (h : Sound permits held self) (hMem : (a, .granted) ∈ self.waiters)
    (hNodup : self.queue.Nodup) : Sound permits (held + 1) (self.resume a) := by
  obtain ⟨hTotal, -, hFifo⟩ := h
  have hGranted := count_leave hMem hNodup .granted
  rw [if_pos rfl] at hGranted
  have hLess : (self.leave a).value + count .granted (self.leave a).waiters + (held + 1) = permits := by
    rw [leave_value]
    omega
  have hKept := hFifo.sublist (List.eraseP_sublist : (self.leave a).waiters.Sublist self.waiters)
  unfold FairSemaphore.resume
  dsimp only
  split
  · rename_i hFree
    exact sound_wakeUpNext hFree hLess hKept
  · rename_i hTaken
    exact ⟨hLess, .inl (Nat.eq_zero_of_not_pos hTaken), hKept⟩

theorem Sound.unwind (h : Sound permits held self) (hMem : (a, future) ∈ self.waiters)
    (hGaveUp : future ≠ .pending) (hNodup : self.queue.Nodup) : Sound permits held (self.unwind a) := by
  obtain ⟨hTotal, hPrompt, hFifo⟩ := h
  have hCount := count_leave hMem hNodup
  have hGranted := hCount .granted
  have hPending := hCount .pending
  have hKept := hFifo.sublist (List.eraseP_sublist : (self.leave a).waiters.Sublist self.waiters)
  unfold FairSemaphore.unwind
  split
  · rename_i hHas
    have hIs : future = .granted := future_unique hNodup hMem hHas
    rw [if_pos hIs] at hGranted
    refine sound_wakeUpNext (Nat.succ_pos _) ?_ hKept
    rw [leave_value]
    dsimp only
    omega
  · rename_i hHas
    have hIs : future ≠ .granted := fun hEq => hHas (hEq ▸ hMem)
    rw [if_neg hIs, Nat.add_zero] at hGranted
    rw [if_neg hGaveUp, Nat.add_zero] at hPending
    refine ⟨?_, ?_, hKept⟩
    · rw [hGranted]
      exact hTotal
    · rw [hGranted, hPending]
      exact hPrompt

theorem pending_of_cancel {b : α} (h : (b, .pending) ∈ (self.cancel a).waiters) : (b, .pending) ∈ self.waiters := by
  obtain ⟨w, hMem, hIs⟩ := List.mem_map.mp h
  split at hIs
  · cases hIs
  · exact hIs ▸ hMem

theorem pending_of_leave {b : α} (h : (b, .pending) ∈ (self.leave a).waiters) : (b, .pending) ∈ self.waiters :=
  List.eraseP_sublist.subset h

theorem pending_of_resume {b : α} (h : (b, .pending) ∈ (self.resume a).waiters) : (b, .pending) ∈ self.waiters := by
  unfold FairSemaphore.resume at h
  dsimp only at h
  split at h
  · exact pending_of_leave (pending_of_wakeUpNext h)
  · exact pending_of_leave h

theorem pending_of_unwind {b : α} (h : (b, .pending) ∈ (self.unwind a).waiters) : (b, .pending) ∈ self.waiters := by
  unfold FairSemaphore.unwind at h
  split at h
  · exact pending_of_leave (pending_of_release h)
  · exact pending_of_leave h

theorem Sound.cancel (h : Sound permits held self) (a : α) : Sound permits held (self.cancel a) := by
  obtain ⟨hTotal, hPrompt, hFifo⟩ := h
  have hGranted : count .granted (self.cancel a).waiters = count .granted self.waiters := by
    unfold FairSemaphore.cancel count
    rw [List.countP_map]
    refine List.countP_congr fun w _ => ?_
    simp only [Function.comp_apply]
    split <;> simp_all
  have hPending : count .pending (self.cancel a).waiters ≤ count .pending self.waiters := by
    unfold FairSemaphore.cancel count
    rw [List.countP_map]
    refine List.countP_mono_left fun w _ => ?_
    simp only [Function.comp_apply]
    split <;> simp_all
  refine ⟨?_, ?_, ?_⟩
  · rw [hGranted]
    exact hTotal
  · rw [hGranted]
    rcases hPrompt with hZero | hNone | hSome
    · exact .inl hZero
    · exact .inr (.inl (by omega))
    · exact .inr (.inr hSome)
  · refine (List.pairwise_map.mpr ?_)
    refine hFifo.imp fun {earlier later} hFirst => ?_
    split <;> split <;> simp_all

theorem Sound.cancel_all (h : Sound permits held self) (who : List α) :
    Sound permits held (who.foldl FairSemaphore.cancel self) := by
  induction who generalizing self with
  | nil => exact h
  | cons a who ih => exact ih (h.cancel a)

theorem queue_cancel_all (self : FairSemaphore α) (who : List α) :
    (who.foldl FairSemaphore.cancel self).queue = self.queue := by
  induction who generalizing self with
  | nil => rfl
  | cons a who ih => rw [List.foldl_cons, ih, queue_cancel]

end Waiter

section Population

variable {β : Type u} {waits : β → Bool} {population : List β} {s s' : FairSemaphore Nat} {i : Nat} {before after : β}

/-- The waiters are those members of a population that are in a certain state. -/
structure Waits (waits : β → Bool) (population : List β) (s : FairSemaphore Nat) : Prop where
  nodup : s.queue.Nodup
  mem_iff : ∀ i, i ∈ s.queue ↔ ∃ b, population[i]? = some b ∧ waits b = true

theorem Waits.congr (h : Waits waits population s) (hQueue : s'.queue = s.queue) : Waits waits population s' :=
  ⟨hQueue ▸ h.nodup, hQueue ▸ h.mem_iff⟩

theorem Waits.not_mem (h : Waits waits population s) (hMember : population[i]? = some before)
    (hBefore : waits before = false) : i ∉ s.queue := by
  rw [h.mem_iff]
  rintro ⟨b, hOther, hWaits⟩
  cases hMember.symm.trans hOther
  rw [hBefore] at hWaits
  cases hWaits

/-- One member changes, and may stop waiting, or begin to. -/
theorem Waits.set (h : Waits waits population s) (hMember : population[i]? = some before) (after : β)
    (hNodup : s'.queue.Nodup) (hSelf : i ∈ s'.queue ↔ waits after = true)
    (hOthers : ∀ j, j ≠ i → (j ∈ s'.queue ↔ j ∈ s.queue)) : Waits waits (population.set i after) s' := by
  have hLt : i < population.length := (List.getElem?_eq_some_iff.mp hMember).1
  refine ⟨hNodup, fun j => ?_⟩
  by_cases hSame : j = i
  · subst hSame
    rw [hSelf, List.getElem?_set_self hLt]
    simp
  · rw [hOthers j hSame, h.mem_iff, List.getElem?_set_ne (Ne.symm hSame)]

/-- One member changes that does not wait before or after. -/
theorem Waits.pass (h : Waits waits population s) (hMember : population[i]? = some before)
    (hBefore : waits before = false) (hAfter : waits after = false) (hQueue : s'.queue = s.queue) :
    Waits waits (population.set i after) s' := by
  refine h.set hMember after (hQueue ▸ h.nodup) ?_ fun j _ => by rw [hQueue]
  rw [hQueue, hAfter]
  exact iff_of_false (h.not_mem hMember hBefore) Bool.false_ne_true

/-- One member stops waiting. -/
theorem Waits.leave (h : Waits waits population s) (hMember : population[i]? = some before)
    (hAfter : waits after = false) (hQueue : s'.queue = s.queue.erase i) : Waits waits (population.set i after) s' := by
  refine h.set hMember after (hQueue ▸ h.nodup.erase i) ?_ fun j hOther => ?_
  · rw [hQueue, hAfter]
    exact iff_of_false h.nodup.not_mem_erase Bool.false_ne_true
  · rw [hQueue, List.mem_erase_of_ne hOther]

/-- One member begins to wait. -/
theorem Waits.join (h : Waits waits population s) (hMember : population[i]? = some before)
    (hBefore : waits before = false) (hAfter : waits after = true) (hQueue : s'.queue = s.queue ++ [i]) :
    Waits waits (population.set i after) s' := by
  refine h.set hMember after ?_ ?_ fun j hOther => ?_
  · rw [hQueue, List.nodup_append]
    refine ⟨h.nodup, List.nodup_singleton i, ?_⟩
    rintro j hj k hk rfl
    exact h.not_mem hMember hBefore (List.mem_singleton.mp hk ▸ hj)
  · rw [hQueue, hAfter]
    simp
  · rw [hQueue]
    simp [hOther]

/-- A new member does not wait yet. -/
theorem Waits.concat (h : Waits waits population s) {b : β} (hNew : waits b = false) :
    Waits waits (population ++ [b]) s := by
  refine ⟨h.nodup, fun i => ?_⟩
  rw [h.mem_iff]
  by_cases hOld : i < population.length
  · rw [List.getElem?_append_left hOld]
  · rw [List.getElem?_eq_none (by omega), List.getElem?_append_right (by omega)]
    constructor
    · rintro ⟨_, hNone, -⟩
      cases hNone
    · rintro ⟨c, hLast, hWaits⟩
      obtain rfl : b = c := by
        have hMem := List.mem_of_getElem? hLast
        exact (List.mem_singleton.mp hMem).symm
      rw [hNew] at hWaits
      cases hWaits

end Population

end FairSemaphore

end Semantics
