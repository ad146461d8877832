import Mathlib.Algebra.Order.Floor.Ring
import Mathlib.Data.List.DropRight
import Mathlib.Data.List.Infix
import Mathlib.Data.Rat.Floor
import Mathlib.Tactic.Linarith

/-! The rate limiter of the load generator. A refiller wakes up again and again and
releases whole tokens for the time that has passed, which the senders acquire.
Its clock starts at 0, and its arithmetic is read as exact. -/
namespace InferenceRouter

/-- `asyncio.Semaphore`: the tokens in hand, and the tasks that wait for one. -/
structure Semaphore where
  value : Nat
  waiters : Nat
  deriving DecidableEq

def Semaphore.acquire (self : Semaphore) : Semaphore :=
  if 0 < self.value then { self with value := self.value - 1 }
  else { self with waiters := self.waiters + 1 }

/-- A token that is waited for goes to a task at once. -/
def Semaphore.release (self : Semaphore) : Semaphore :=
  if 0 < self.waiters then { self with waiters := self.waiters - 1 }
  else { self with value := self.value + 1 }

/-- Tokens and tasks are counted, and no task waits while there is a token. -/
structure Semaphore.Balanced (s : Semaphore) (released acquired : Nat) : Prop where
  count : released + s.waiters = acquired + s.value
  idle : s.value = 0 ∨ s.waiters = 0

namespace Semaphore.Balanced

variable {self : Semaphore} {released acquired : Nat}

theorem acquire (h : self.Balanced released acquired) : self.acquire.Balanced released (acquired + 1) := by
  obtain ⟨hCount, hIdle⟩ := h
  unfold Semaphore.acquire
  split
  · exact ⟨by dsimp only; omega, by dsimp only; omega⟩
  · exact ⟨by dsimp only; omega, by dsimp only; omega⟩

theorem release (h : self.Balanced released acquired) : self.release.Balanced (released + 1) acquired := by
  obtain ⟨hCount, hIdle⟩ := h
  unfold Semaphore.release
  split
  · exact ⟨by dsimp only; omega, by dsimp only; omega⟩
  · exact ⟨by dsimp only; omega, by dsimp only; omega⟩

theorem release_iterate (h : self.Balanced released acquired) (tokens : Nat) :
    (Semaphore.release^[tokens] self).Balanced (released + tokens) acquired := by
  induction tokens with
  | zero => exact h
  | succ tokens ih =>
      rw [Function.iterate_succ_apply']
      exact ih.release

end Semaphore.Balanced

/-- `int`, which cuts the fraction off. -/
def truncate (q : ℚ) : ℤ := q.num.tdiv q.den

/-- The refiller's sleep, which may be late, and by any time. -/
structure Sleep where
  secs : ℚ
  nonneg : 0 ≤ secs

/-- The semaphore and the variables of the refiller, and how many tokens were
released and asked for so far. -/
structure RateLimiter where
  semaphore : Semaphore
  credit : ℚ
  last : ℚ
  released : Nat
  acquired : Nat

namespace RateLimiter

def new : RateLimiter where
  semaphore := ⟨0, 0⟩
  credit := 0
  last := 0
  released := 0
  acquired := 0

/-- One turn of the loop in `rate_limit_refiller`. -/
def refill (rps : ℚ) (self : RateLimiter) (sleep : Sleep) : RateLimiter :=
  let now := self.last + sleep.secs
  let credit := min (self.credit + rps * (now - self.last)) rps
  let tokens := truncate credit
  { self with
    semaphore := Semaphore.release^[tokens.toNat] self.semaphore
    credit := credit - tokens
    last := now
    released := self.released + tokens.toNat }

/-- A sender that asks for a token. -/
def acquire (self : RateLimiter) : RateLimiter :=
  { self with semaphore := self.semaphore.acquire, acquired := self.acquired + 1 }

inductive Event where
  | wake (sleep : Sleep)
  | acquire

def step (rps : ℚ) (self : RateLimiter) : Event → RateLimiter
  | .wake sleep => self.refill rps sleep
  | .acquire => self.acquire

def run (rps : ℚ) (schedule : List Event) : RateLimiter := schedule.foldl (step rps) new

theorem run_concat (rps : ℚ) (schedule : List Event) (event : Event) :
    run rps (schedule ++ [event]) = (run rps schedule).step rps event := by
  rw [run, List.foldl_append, List.foldl_cons, List.foldl_nil, ← run]

/-- What was released, and the credit that is left. -/
def kept (self : RateLimiter) : ℚ := self.released + self.credit

/-- All the credit that time has brought is there or was released. -/
def Lossless (rps : ℚ) (self : RateLimiter) : Prop := self.kept = rps * self.last

/-- At every wake-up the senders had taken every token. -/
def Taken (rps : ℚ) (schedule : List Event) : Prop :=
  ∀ past sleep, past ++ [.wake sleep] <+: schedule → (run rps past).semaphore.value = 0

/-- What the load generator documents, after a schedule. -/
structure TokenBucket (rps : ℚ) (schedule : List Event) : Prop where
  rate : (run rps schedule).released ≤ rps * (run rps schedule).last
  /-- A wake-up that finds every token taken loses no credit. -/
  lossless : ∀ past sleep, schedule = past ++ [.wake sleep] → (run rps past).semaphore.value = 0 →
    (run rps schedule).kept = (run rps past).kept + rps * sleep.secs
  prompt : Taken rps schedule → ⌊rps * (run rps schedule).last⌋ - 1 ≤ ((run rps schedule).released : ℤ)
  /-- Tokens that nobody took are at most those of one second. -/
  burst : (run rps schedule).semaphore.value ≤ max rps 1

/-- When the refiller last woke up. -/
def elapsed (schedule : List Event) : ℚ :=
  (schedule.map fun event =>
    match event with
    | .wake sleep => sleep.secs
    | .acquire => 0).sum

def acquires (schedule : List Event) : Nat :=
  schedule.countP fun event =>
    match event with
    | .wake _ => false
    | .acquire => true

/-- At no wake-up does the cap cut off credit: what is left of the last one and what the
sleep brings do not exceed one second's worth. -/
def Steady (rps : ℚ) (schedule : List Event) : Prop :=
  ∀ past sleep, past ++ [.wake sleep] <+: schedule →
    Int.fract (rps * elapsed past) + rps * sleep.secs ≤ rps

/-- The senders never fall behind by more than one second's worth. -/
def Drained (rps : ℚ) (schedule : List Event) : Prop :=
  ∀ past, past <+: schedule → ⌊rps * elapsed past⌋ ≤ acquires past + max rps 1

@[simp] theorem elapsed_wake (schedule : List Event) (sleep : Sleep) :
    elapsed (schedule ++ [.wake sleep]) = elapsed schedule + sleep.secs := by
  simp [elapsed]

@[simp] theorem elapsed_acquire (schedule : List Event) : elapsed (schedule ++ [.acquire]) = elapsed schedule := by
  simp [elapsed]

@[simp] theorem acquires_wake (schedule : List Event) (sleep : Sleep) :
    acquires (schedule ++ [.wake sleep]) = acquires schedule := by
  simp [acquires]

@[simp] theorem acquires_acquire (schedule : List Event) :
    acquires (schedule ++ [.acquire]) = acquires schedule + 1 := by
  simp [acquires]

theorem truncate_of_nonneg {q : ℚ} (h : 0 ≤ q) : truncate q = ⌊q⌋ := by
  rw [truncate, Rat.floor_def', Int.tdiv_eq_ediv_of_nonneg (Rat.num_nonneg.mpr h)]

/-- What is known after any schedule. -/
structure Refilled (rps : ℚ) (schedule : List Event) (s : RateLimiter) : Prop where
  semaphore : s.semaphore.Balanced s.released s.acquired
  acquired : s.acquired = acquires schedule
  last : s.last = elapsed schedule
  nonneg : 0 ≤ s.credit
  fraction : s.credit < 1
  rate : s.kept ≤ rps * s.last
  /-- Below one token a second the cap lets no token through. -/
  slow : rps < 1 → s.released = 0

section Steps

variable {rps : ℚ} {schedule : List Event} {self : RateLimiter}

/-- What a wake-up does, when the credit is not negative. -/
theorem refill_eq (hRps : 0 ≤ rps) (hCredit : 0 ≤ self.credit) (sleep : Sleep) :
    ∃ tokens : Nat, tokens + Int.fract (min (self.credit + rps * sleep.secs) rps) =
        min (self.credit + rps * sleep.secs) rps ∧
      self.refill rps sleep =
        { self with
          semaphore := Semaphore.release^[tokens] self.semaphore
          credit := Int.fract (min (self.credit + rps * sleep.secs) rps)
          last := self.last + sleep.secs
          released := self.released + tokens } := by
  have hNow : self.last + sleep.secs - self.last = sleep.secs := add_sub_cancel_left ..
  have hNonneg : 0 ≤ min (self.credit + rps * sleep.secs) rps :=
    le_min (add_nonneg hCredit (mul_nonneg hRps sleep.nonneg)) hRps
  have hTokens : (⌊min (self.credit + rps * sleep.secs) rps⌋.toNat : ℤ) = ⌊min (self.credit + rps * sleep.secs) rps⌋ :=
    Int.toNat_of_nonneg (Int.floor_nonneg.mpr hNonneg)
  refine ⟨⌊min (self.credit + rps * sleep.secs) rps⌋.toNat, ?_, ?_⟩
  · rw [← Int.cast_natCast, hTokens]
    exact Int.floor_add_fract _
  · simp only [refill, hNow, truncate_of_nonneg hNonneg, Int.self_sub_floor]

theorem Refilled.wake (hRps : 0 ≤ rps) (h : Refilled rps schedule self) (sleep : Sleep) :
    Refilled rps (schedule ++ [.wake sleep]) (self.refill rps sleep) := by
  obtain ⟨tokens, hWhole, hRefill⟩ := refill_eq hRps h.nonneg sleep
  rw [hRefill]
  refine ⟨h.semaphore.release_iterate tokens, ?_, ?_, Int.fract_nonneg _, Int.fract_lt_one _, ?_, fun hSlow => ?_⟩
  · rw [acquires_wake]
    exact h.acquired
  · rw [elapsed_wake, h.last]
  · have hRate := h.rate
    have hCap := min_le_left (self.credit + rps * sleep.secs) rps
    simp only [kept] at hRate ⊢
    push_cast
    linarith
  · have hCap := min_le_right (self.credit + rps * sleep.secs) rps
    have hFraction := Int.fract_nonneg (min (self.credit + rps * sleep.secs) rps)
    have hFew : (tokens : ℚ) < 1 := by linarith
    have hNone : tokens = 0 := Nat.lt_one_iff.mp (by exact_mod_cast hFew)
    simp [hNone, h.slow hSlow]

theorem Refilled.acquire (h : Refilled rps schedule self) :
    Refilled rps (schedule ++ [.acquire]) self.acquire :=
  ⟨h.semaphore.acquire, by rw [acquires_acquire, ← h.acquired]; rfl, by rw [elapsed_acquire, ← h.last]; rfl,
    h.nonneg, h.fraction, h.rate, h.slow⟩

/-- Without loss, the credit is the fraction of a token that time has brought. -/
theorem Refilled.floor_eq (h : Refilled rps schedule self) (hLossless : self.Lossless rps) :
    ⌊rps * self.last⌋ = self.released ∧ Int.fract (rps * self.last) = self.credit := by
  rw [← hLossless, kept]
  have hFloor : ⌊(self.released : ℚ) + self.credit⌋ = self.released := by
    rw [Int.floor_eq_iff]
    exact ⟨by exact_mod_cast le_add_of_nonneg_right h.nonneg, by
      have hFraction := h.fraction
      push_cast
      linarith⟩
  refine ⟨hFloor, ?_⟩
  rw [Int.fract, hFloor]
  push_cast
  ring

/-- A wake-up loses nothing exactly if the cap does not bite. -/
theorem Refilled.lossless_wake_iff (hRps : 0 ≤ rps) (h : Refilled rps schedule self)
    (hLossless : self.Lossless rps) (sleep : Sleep) :
    (self.refill rps sleep).Lossless rps ↔ Int.fract (rps * elapsed schedule) + rps * sleep.secs ≤ rps := by
  obtain ⟨tokens, hWhole, hRefill⟩ := refill_eq hRps h.nonneg sleep
  rw [← h.last, (h.floor_eq hLossless).2, ← min_eq_left_iff, hRefill]
  simp only [Lossless, kept] at hLossless ⊢
  push_cast
  constructor
  · intro hKept
    linarith
  · intro hKept
    linarith

/-- Where the cap bites after half a second at most, a token was in hand before only
if there is more than one second's worth now. -/
theorem Refilled.burst_lt_of_cut (hRps : 0 < rps) (h : Refilled rps schedule self) {sleep : Sleep}
    (hHalf : sleep.secs ≤ 1 / 2) (hCut : rps < self.credit + rps * sleep.secs)
    (hHand : self.semaphore.value ≠ 0) : max rps 1 < (self.refill rps sleep).semaphore.value := by
  obtain ⟨tokens, hWhole, hRefill⟩ := refill_eq hRps.le h.nonneg sleep
  rw [min_eq_right hCut.le] at hWhole
  have hOne : 1 ≤ rps := by
    by_contra hSlow
    have hNone := h.slow (not_le.mp hSlow)
    have hCount := h.semaphore.count
    have hIdle := h.semaphore.idle
    omega
  have hTwo : rps < 2 := by
    have hFraction := h.fraction
    have hSleep := mul_le_mul_of_nonneg_left hHalf hRps.le
    linarith
  have hTokens : 1 ≤ tokens := by
    have hFraction := Int.fract_lt_one rps
    have hSome : (0 : ℚ) < tokens := by linarith
    exact_mod_cast hSome
  have hAfter : 2 ≤ (self.refill rps sleep).semaphore.value := by
    have hBefore := h.semaphore
    have hBalanced := hBefore.release_iterate tokens
    have hCount := hBefore.count
    have hIdle := hBefore.idle
    have hLater := hBalanced.count
    rw [hRefill]
    dsimp only
    omega
  rw [max_eq_left hOne]
  exact hTwo.trans_le (by exact_mod_cast hAfter)

end Steps

section Runs

variable {rps : ℚ} {schedule : List Event}

theorem run_refilled (hRps : 0 ≤ rps) (schedule : List Event) : Refilled rps schedule (run rps schedule) := by
  induction schedule using List.reverseRecOn with
  | nil => exact ⟨⟨rfl, .inl rfl⟩, rfl, rfl, le_rfl, zero_lt_one, by simp [run, new, kept], fun _ => rfl⟩
  | append_singleton schedule event ih =>
      rw [run_concat]
      cases event with
      | wake sleep => exact ih.wake hRps sleep
      | acquire => exact ih.acquire

/-- Without a cut, nothing is lost. -/
theorem run_lossless (hRps : 0 ≤ rps) (hSteady : Steady rps schedule) : (run rps schedule).Lossless rps := by
  induction schedule using List.reverseRecOn with
  | nil => simp [Lossless, kept, run, new]
  | append_singleton schedule event ih =>
      have hPast : (run rps schedule).Lossless rps :=
        ih fun past sleep hPrefix => hSteady past sleep (hPrefix.trans (List.prefix_append ..))
      rw [run_concat]
      cases event with
      | wake sleep =>
          exact ((run_refilled hRps schedule).lossless_wake_iff hRps hPast sleep).mpr
            (hSteady schedule sleep (List.prefix_refl _))
      | acquire => exact hPast

/-- Tokens that nobody took are those nobody asked for. -/
theorem Refilled.burst_iff {self : RateLimiter} (hRps : 0 < rps) (h : Refilled rps schedule self)
    (hLossless : self.Lossless rps) :
    self.semaphore.value ≤ max rps 1 ↔ ⌊rps * elapsed schedule⌋ ≤ acquires schedule + max rps 1 := by
  rw [← h.last, (h.floor_eq hLossless).1, ← h.acquired, Int.cast_natCast]
  have hSecond : 0 < max rps 1 := lt_max_of_lt_left hRps
  obtain ⟨hCount, hNone | hTaken⟩ := h.semaphore
  · have hBehind : (self.released : ℚ) ≤ self.acquired := by
      exact_mod_cast (show self.released ≤ self.acquired by omega)
    rw [hNone, Nat.cast_zero]
    exact iff_of_true hSecond.le (by linarith)
  · have hAhead : (self.released : ℚ) = self.acquired + self.semaphore.value := by
      exact_mod_cast (show self.released = self.acquired + self.semaphore.value by omega)
    rw [hAhead, add_le_add_iff_left]

/-- A token bucket never loses credit, whatever the senders do: the first cut finds
every token taken, or leaves too many. -/
theorem lossless_of_tokenBucket (hRps : 0 < rps)
    (hSleeps : ∀ sleep, .wake sleep ∈ schedule → sleep.secs ≤ 1 / 2)
    (hBucket : ∀ past, past <+: schedule → TokenBucket rps past) : (run rps schedule).Lossless rps := by
  induction schedule using List.reverseRecOn with
  | nil => simp [Lossless, kept, run, new]
  | append_singleton schedule event ih =>
      have hPast : (run rps schedule).Lossless rps :=
        ih (fun sleep hSleep => hSleeps sleep (List.mem_append_left _ hSleep))
          fun past hPrefix => hBucket past (hPrefix.trans (List.prefix_append ..))
      have hLast := hBucket _ (List.prefix_refl _)
      have hRefilled := run_refilled hRps.le schedule
      cases event with
      | acquire =>
          rw [run_concat]
          exact hPast
      | wake sleep =>
          by_cases hHand : (run rps schedule).semaphore.value = 0
          · rw [Lossless, hLast.lossless schedule sleep rfl hHand, hPast, ← mul_add, run_concat]
            rfl
          · have hHalf := hSleeps sleep (List.mem_append_right _ (List.mem_singleton_self _))
            have hBurst := hLast.burst
            rw [run_concat] at hBurst ⊢
            refine (hRefilled.lossless_wake_iff hRps.le hPast sleep).mpr (not_lt.mp fun hCut => ?_)
            rw [← hRefilled.last, (hRefilled.floor_eq hPast).2] at hCut
            exact hBurst.not_gt (hRefilled.burst_lt_of_cut hRps hHalf hCut hHand)

/-- The rate limiter is the token bucket that it documents at every moment of a run
exactly if the cap never cuts off credit and the senders do not fall behind. -/
theorem tokenBucket_iff (hRps : 0 < rps) {schedule : List Event}
    (hSleeps : ∀ sleep, .wake sleep ∈ schedule → sleep.secs ≤ 1 / 2) :
    (∀ past, past <+: schedule → TokenBucket rps past) ↔ Steady rps schedule ∧ Drained rps schedule := by
  constructor
  · intro hBucket
    have hLossless (past : List Event) (hPrefix : past <+: schedule) : (run rps past).Lossless rps :=
      lossless_of_tokenBucket hRps (fun sleep hSleep => hSleeps sleep (hPrefix.subset hSleep))
        fun earlier hEarlier => hBucket earlier (hEarlier.trans hPrefix)
    constructor
    · intro past sleep hPrefix
      have hWoken := hLossless _ hPrefix
      have hPast := hLossless past ((List.prefix_append ..).trans hPrefix)
      rw [run_concat] at hWoken
      exact ((run_refilled hRps.le past).lossless_wake_iff hRps.le hPast sleep).mp hWoken
    · intro past hPrefix
      exact ((run_refilled hRps.le past).burst_iff hRps (hLossless past hPrefix)).mp (hBucket past hPrefix).burst
  · rintro ⟨hSteady, hDrained⟩ past hPrefix
    have hRefilled := run_refilled hRps.le past
    have hLossless (earlier : List Event) (hEarlier : earlier <+: past) : (run rps earlier).Lossless rps :=
      run_lossless hRps.le fun first sleep hFirst => hSteady first sleep (hFirst.trans (hEarlier.trans hPrefix))
    have hNow := hLossless past (List.prefix_refl _)
    refine ⟨?_, ?_, fun _ => ?_, (hRefilled.burst_iff hRps hNow).mpr (hDrained past hPrefix)⟩
    · exact (le_add_of_nonneg_right hRefilled.nonneg).trans hRefilled.rate
    · rintro earlier sleep rfl _
      rw [hNow, hLossless earlier (List.prefix_append ..), ← mul_add, run_concat]
      rfl
    · rw [(hRefilled.floor_eq hNow).1]
      omega

/-- From two tokens a second on, half a second is not enough for the cap to bite. -/
theorem steady_of_two_le (hRps : 2 ≤ rps) {schedule : List Event}
    (hSleeps : ∀ sleep, .wake sleep ∈ schedule → sleep.secs ≤ 1 / 2) : Steady rps schedule := by
  intro past sleep hPrefix
  have hFraction := Int.fract_lt_one (rps * elapsed past)
  have hHalf := hSleeps sleep (hPrefix.subset (by simp))
  have hSleep : rps * sleep.secs ≤ rps * (1 / 2) := mul_le_mul_of_nonneg_left hHalf (by linarith)
  linarith

end Runs

def halfSecond : Sleep := ⟨1 / 2, by norm_num⟩

/-- Two seconds at two tokens a second, of which senders take half. -/
theorem tokenBucket_iff_two :
    let schedule := [.wake halfSecond, .wake halfSecond, .acquire, .acquire, .wake halfSecond, .wake halfSecond]
    ∀ past, past <+: schedule → TokenBucket 2 past := by
  intro schedule
  have hDrained : ∀ past ∈ schedule.inits, (⌊2 * elapsed past⌋ : ℚ) ≤ acquires past + max 2 1 := by
    decide +kernel
  have hSleeps : ∀ sleep, .wake sleep ∈ schedule → sleep.secs ≤ 1 / 2 := by simp [schedule, halfSecond]
  exact (tokenBucket_iff two_pos hSleeps).mpr
    ⟨steady_of_two_le le_rfl hSleeps, fun past hPrefix => hDrained past ((List.mem_inits ..).mpr hPrefix)⟩

/-- A sender waits for four seconds at half a token a second, and gets none of the two that
are due. At ten tokens a second nobody asks for two seconds, and twenty tokens are
in hand. -/
theorem not_tokenBucket :
    let waiting := .acquire :: List.replicate 8 (.wake halfSecond)
    let idle := List.replicate 4 (.wake halfSecond)
    ((run (1 / 2) waiting).semaphore = ⟨0, 1⟩ ∧
      ((run (1 / 2) waiting).released : ℤ) < ⌊(1 / 2) * (run (1 / 2) waiting).last⌋ - 1 ∧
      Taken (1 / 2) waiting ∧ ¬TokenBucket (1 / 2) waiting) ∧
    (max 10 1 : ℚ) < (run 10 idle).semaphore.value ∧ ¬TokenBucket 10 idle := by
  intro waiting idle
  have hWaiting : (run (1 / 2) waiting).semaphore = ⟨0, 1⟩ ∧
      ((run (1 / 2) waiting).released : ℤ) < ⌊(1 / 2) * (run (1 / 2) waiting).last⌋ - 1 := by
    decide +kernel
  have hNone : ∀ past ∈ waiting.inits, (run (1 / 2) past).semaphore.value = 0 := by decide +kernel
  have hTaken : Taken (1 / 2) waiting := fun past _ hPrefix =>
    hNone past ((List.mem_inits ..).mpr ((List.prefix_append ..).trans hPrefix))
  have hIdle : (max 10 1 : ℚ) < (run 10 idle).semaphore.value := by decide +kernel
  exact ⟨⟨hWaiting.1, hWaiting.2, hTaken, fun hBucket => (hBucket.prompt hTaken).not_gt hWaiting.2⟩,
    hIdle, fun hBucket => hBucket.burst.not_gt hIdle⟩

end RateLimiter

end InferenceRouter
