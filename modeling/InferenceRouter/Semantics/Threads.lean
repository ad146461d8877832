import InferenceRouter.Semantics.Interleaving
import Mathlib.Data.List.DropRight

/-! Threads that run programs over one shared world. A thread does one operation
at a time, and any thread may be the next. A schedule also says when a thread is
started. Nothing here refers to a particular program. -/
namespace Semantics

universe u v w x y

/-- What a scheduler decides. -/
inductive Turn (Call : Type u) where
  | start (call : Call)
  | resume (thread : Nat)

/-- The calls that a schedule has started. -/
def calls {Call : Type u} (schedule : List (Turn Call)) : List Call :=
  schedule.filterMap fun turn =>
    match turn with
    | .start call => some call
    | .resume _ => none

@[simp] theorem calls_start {Call : Type u} (schedule : List (Turn Call)) (call : Call) :
    calls (schedule ++ [.start call]) = calls schedule ++ [call] :=
  List.filterMap_append

@[simp] theorem calls_resume {Call : Type u} (schedule : List (Turn Call)) (thread : Nat) :
    calls (schedule ++ [.resume thread]) = calls schedule := by
  rw [calls, List.filterMap_append, ← calls]
  exact List.append_nil _

/-- Each thread is what it has left to do. They are numbered as they were started. -/
structure Threads (World : Type u) (Op : Type v) (Answer : Op → Type w) (Result : Type x) where
  world : World
  programs : List (Program Op Answer Result)

/-- What a program that has come to its end returns. -/
def Program.result? {Op : Type v} {Answer : Op → Type w} {Result : Type x} :
    Program Op Answer Result → Option Result
  | .done result => some result
  | .ask _ _ => none

namespace Threads

variable {Call : Type y} {World : Type u} {Op : Type v} {Answer : Op → Type w} {Result : Type x}

/-- What the threads that have come to their end return. -/
def results (self : Threads World Op Answer Result) : List Result :=
  self.programs.filterMap Program.result?

/-- All threads have come to their end. -/
def Finished (self : Threads World Op Answer Result) : Prop :=
  ∀ program ∈ self.programs, program.result?.isSome

instance (self : Threads World Op Answer Result) : Decidable self.Finished :=
  inferInstanceAs (Decidable (∀ program ∈ self.programs, program.result?.isSome))

theorem results_append (world : World) (before after : List (Program Op Answer Result)) :
    results { world, programs := before ++ after } =
      before.filterMap Program.result? ++ after.filterMap Program.result? :=
  List.filterMap_append

/-- A thread that is not over at its start adds no result. -/
theorem results_start {program : Program Op Answer Result} (h : program.result? = none)
    (self : Threads World Op Answer Result) :
    results { self with programs := self.programs ++ [program] } = self.results := by
  rw [results_append, List.filterMap_cons, h, List.filterMap_nil, List.append_nil]
  rfl

/-- What holds of all programs holds when one goes on to another of which it holds. -/
theorem forall_programs_replace {P : Program Op Answer Result → Prop}
    {before after : List (Program Op Answer Result)} {program program' : Program Op Answer Result}
    (h : ∀ other ∈ before ++ program :: after, P other) (hNew : P program') :
    ∀ other ∈ before ++ program' :: after, P other := by
  rw [List.forall_mem_append, List.forall_mem_cons] at h ⊢
  exact ⟨h.1, hNew, h.2.2⟩

/-- The other threads are where they were. -/
theorem getElem?_replace {before after : List (Program Op Answer Result)} {i : Nat} (h : i ≠ before.length)
    (program program' : Program Op Answer Result) :
    (before ++ program :: after)[i]? = (before ++ program' :: after)[i]? := by
  rcases Nat.lt_or_gt_of_ne h with hBefore | hAfter
  · rw [List.getElem?_append_left hBefore, List.getElem?_append_left hBefore]
  · obtain ⟨k, hk⟩ := Nat.exists_eq_succ_of_ne_zero (Nat.sub_ne_zero_of_lt hAfter)
    rw [List.getElem?_append_right hAfter.le, List.getElem?_append_right hAfter.le, hk]
    rfl

theorem length_results_le (self : Threads World Op Answer Result) :
    self.results.length ≤ self.programs.length :=
  List.length_filterMap_le ..

theorem length_results_of_finished {self : Threads World Op Answer Result} (h : self.Finished) :
    self.results.length = self.programs.length := by
  rw [results, List.length_filterMap_eq_countP, List.countP_eq_length]
  exact h

variable (body : Call → Program Op Answer Result) (perform : World → (op : Op) → Answer op × World)

/-- A thread that is over, or was never started, does nothing with its turn. -/
def turn (self : Threads World Op Answer Result) : Turn Call → Threads World Op Answer Result
  | .start call => { self with programs := self.programs ++ [body call] }
  | .resume thread =>
      match self.programs[thread]? with
      | some (.ask op next) =>
          let (answer, world) := perform self.world op
          { world, programs := self.programs.set thread (next answer) }
      | _ => self

/-- A schedule from its beginning, with no thread started. -/
def run (world : World) (schedule : List (Turn Call)) : Threads World Op Answer Result :=
  schedule.foldl (turn body perform) { world, programs := [] }

variable {body perform}

/-- A turn of a thread is idle, or one operation of one program. -/
theorem turn_resume (self : Threads World Op Answer Result) (thread : Nat) :
    turn body perform self (.resume thread) = self ∨
      ∃ before op next after, self.programs = before ++ .ask op next :: after ∧
        turn body perform self (.resume thread) =
          { world := (perform self.world op).2
            programs := before ++ next (perform self.world op).1 :: after } := by
  cases hThread : self.programs[thread]? with
  | none => exact .inl (by simp [turn, hThread])
  | some program =>
      cases program with
      | done result => exact .inl (by simp [turn, hThread])
      | ask op next =>
          obtain ⟨hLt, hGet⟩ := List.getElem?_eq_some_iff.mp hThread
          refine .inr ⟨self.programs.take thread, op, next, self.programs.drop (thread + 1), ?_, ?_⟩
          · rw [← hGet, ← List.drop_eq_getElem_cons hLt, List.take_append_drop]
          · simp only [turn, hThread]
            rw [List.set_eq_take_append_cons_drop, if_pos hLt]

/-- What the start of a thread and each of its operations preserve holds whatever
the schedule. The invariant may speak of the schedule so far. -/
theorem run_invariant {world : World} (Inv : List (Turn Call) → Threads World Op Answer Result → Prop)
    (hNil : Inv [] { world, programs := [] })
    (hStart : ∀ schedule call s, Inv schedule s →
      Inv (schedule ++ [.start call]) { s with programs := s.programs ++ [body call] })
    (hIdle : ∀ schedule thread s, Inv schedule s → Inv (schedule ++ [.resume thread]) s)
    (hPerform : ∀ schedule thread world before op next after,
      Inv schedule { world, programs := before ++ .ask op next :: after } →
        Inv (schedule ++ [.resume thread])
          { world := (perform world op).2, programs := before ++ next (perform world op).1 :: after })
    (schedule : List (Turn Call)) : Inv schedule (run body perform world schedule) := by
  induction schedule using List.reverseRecOn with
  | nil => exact hNil
  | append_singleton schedule last ih =>
      rw [run, List.foldl_append, List.foldl_cons, List.foldl_nil, ← run]
      cases last with
      | start call => exact hStart schedule call _ ih
      | resume thread =>
          generalize run body perform world schedule = s at ih
          rcases turn_resume s thread with hSame | ⟨before, op, next, after, hPrograms, hTurn⟩
          · rw [hSame]
            exact hIdle schedule thread s ih
          · rw [hTurn]
            obtain ⟨world', programs⟩ := s
            obtain rfl : programs = _ := hPrograms
            exact hPerform schedule thread world' before op next after ih

/-- There are as many threads as were started. -/
theorem length_programs_run (world : World) (schedule : List (Turn Call)) :
    (run body perform world schedule).programs.length = (calls schedule).length := by
  refine run_invariant (fun (schedule : List (Turn Call)) s =>
    s.programs.length = (calls schedule).length) rfl ?_ ?_ ?_ schedule
  · intro schedule call s h
    rw [calls_start, List.length_append, List.length_append, h]
    rfl
  · intro schedule thread s h
    rw [calls_resume, h]
  · intro schedule thread world before op next after h
    rw [calls_resume, ← h, List.length_append, List.length_append]
    rfl

/-- A thread that is over stays so. -/
theorem results_sublist_turn (self : Threads World Op Answer Result) (event : Turn Call) :
    self.results.Sublist (turn body perform self event).results := by
  cases event with
  | start call =>
      rw [turn, results_append]
      exact List.sublist_append_left ..
  | resume thread =>
      rcases turn_resume self thread with hSame | ⟨before, op, next, after, hPrograms, hTurn⟩
      · rw [hSame]
      · rw [hTurn, results, hPrograms, results_append, List.filterMap_append]
        exact (List.Sublist.refl _).append ((List.sublist_cons_self _ after).filterMap _)

theorem results_sublist_run_append (world : World) (schedule later : List (Turn Call)) :
    (run body perform world schedule).results.Sublist (run body perform world (schedule ++ later)).results := by
  induction later using List.reverseRecOn with
  | nil => rw [List.append_nil]
  | append_singleton later last ih =>
      rw [← List.append_assoc]
      simp only [run, List.foldl_append, List.foldl_cons, List.foldl_nil] at ih ⊢
      exact ih.trans (results_sublist_turn _ last)

end Threads

end Semantics
