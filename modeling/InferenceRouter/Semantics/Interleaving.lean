import InferenceRouter.Semantics.Run
import Mathlib.Data.List.Nodup

/-! Programs whose operations on shared state are atomic one by one but not
together: before each operation the environment may take any number of steps.
Nothing here refers to a particular program. -/
namespace Semantics

universe u v w x y

/-- A program that asks for operations and goes on with their answers. -/
inductive Program (Op : Type u) (Answer : Op → Type v) (Result : Type w) where
  | done (result : Result)
  | ask (op : Op) (next : Answer op → Program Op Answer Result)

/-- One operation that was done, with the state it found and the state it left. -/
structure Access (World : Type u) {Op : Type v} (Answer : Op → Type w) where
  before : World
  op : Op
  answer : Answer op
  after : World

namespace Program

section Syntax

variable {Op : Type u} {Answer : Op → Type v} {α β : Type w}

def bind : Program Op Answer α → (α → Program Op Answer β) → Program Op Answer β
  | .done a, f => f a
  | .ask op next, f => .ask op fun answer => (next answer).bind f

instance : Monad (Program Op Answer) where
  pure := .done
  bind := bind

theorem done_bind (a : α) (f : α → Program Op Answer β) : Program.done a >>= f = f a := rfl

/-- However its operations are answered, the number of operations and the
result satisfy `Q`. -/
def Returns : Program Op Answer α → (Nat → α → Prop) → Prop
  | .done a, Q => Q 0 a
  | .ask _ next, Q => ∀ answer, (next answer).Returns fun n => Q (n + 1)

theorem Returns.mono {p : Program Op Answer α} {Q Q' : Nat → α → Prop} (h : p.Returns Q)
    (hImp : ∀ n a, Q n a → Q' n a) : p.Returns Q' := by
  induction p generalizing Q Q' with
  | done a => exact hImp 0 a h
  | ask op next ih => exact fun answer => ih answer (h answer) fun n => hImp (n + 1)

theorem Returns.bind {p : Program Op Answer α} {f : α → Program Op Answer β} {Q : Nat → β → Prop}
    (h : p.Returns fun m a => (f a).Returns fun n => Q (m + n)) : (p >>= f).Returns Q := by
  induction p generalizing Q with
  | done a =>
      rw [done_bind]
      simpa only [Returns, Nat.zero_add] using h
  | ask op next ih =>
      intro answer
      refine ih answer ((h answer).mono fun m a hNext => ?_)
      simpa only [Nat.add_right_comm] using hNext

end Syntax

/-- A single operation. -/
def call {Op : Type u} {Answer : Op → Type v} (op : Op) : Program Op Answer (Answer op) :=
  .ask op .done

section Filter

variable {Op : Type u} {Answer : Op → Type v} {α : Type}

/-- Keep the elements that pass a test, testing them in order. -/
def filter (test : α → Program Op Answer Bool) : List α → Program Op Answer (List α)
  | [] => pure []
  | a :: l => do
      let keep ← test a
      let rest ← filter test l
      pure (if keep then a :: rest else rest)

theorem returns_filter {test : α → Program Op Answer Bool} {n : Nat}
    (h : ∀ a, (test a).Returns fun m _ => m ≤ n) (l : List α) :
    (filter test l).Returns fun m kept => m ≤ n * l.length ∧ kept.length ≤ l.length := by
  induction l with
  | nil => exact ⟨Nat.zero_le _, Nat.le_refl _⟩
  | cons a l ih =>
      refine ((h a).mono fun m keep hFirst => ?_).bind
      refine (ih.mono fun m' rest hRest => ?_).bind
      constructor
      · rw [List.length_cons, Nat.mul_succ]
        omega
      · split
        · exact Nat.succ_le_succ hRest.2
        · exact Nat.le_succ_of_le hRest.2

end Filter

section ForEach

variable {Op : Type u} {Answer : Op → Type v} {α : Type}

end ForEach

section Holding

variable {Op : Type u} {Answer : Op → Type v} {α β : Type w} {Q : Op → Prop} {value : α → Nat}
  {gives : (op : Op) → Answer op → Nat}

/-- What a program has in its hands: the value of its result, once it is done. -/
def held (value : α → Nat) : Program Op Answer α → Nat
  | .done a => value a
  | .ask _ _ => 0

/-- After each of its operations, a program holds exactly what that one gave. -/
def Keeps (value : α → Nat) (gives : (op : Op) → Answer op → Nat) : Program Op Answer α → Prop
  | .done _ => True
  | .ask op next => ∀ answer, (next answer).held value = gives op answer ∧ (next answer).Keeps value gives

/-- However they are answered, all operations satisfy `Q`. -/
def Asks (Q : Op → Prop) : Program Op Answer α → Prop
  | .done _ => True
  | .ask op next => Q op ∧ ∀ answer, (next answer).Asks Q

theorem Asks.bind {p : Program Op Answer α} {f : α → Program Op Answer β} (h : p.Asks Q)
    (hNext : ∀ a, (f a).Asks Q) : (p >>= f).Asks Q := by
  induction p with
  | done a => exact hNext a
  | ask op next ih => exact ⟨h.1, fun answer => ih answer (h.2 answer)⟩

theorem asks_filter {γ : Type} {test : γ → Program Op Answer Bool} (h : ∀ a, (test a).Asks Q) (l : List γ) :
    (filter test l).Asks Q := by
  induction l with
  | nil => trivial
  | cons a l ih => exact (h a).bind fun _ => ih.bind fun _ => trivial

/-- Nothing is held before operations that give nothing, nor after them. -/
theorem Asks.keeps_bind {p : Program Op Answer β} {f : β → Program Op Answer α}
    (h : p.Asks fun op => ∀ answer, gives op answer = 0)
    (hNext : ∀ b, (f b).held value = 0 ∧ (f b).Keeps value gives) :
    (p >>= f).held value = 0 ∧ (p >>= f).Keeps value gives := by
  induction p with
  | done b => exact hNext b
  | ask op next ih =>
      refine ⟨rfl, fun answer => ?_⟩
      obtain ⟨hHeld, hKeeps⟩ := ih answer (h.2 answer)
      exact ⟨hHeld.trans (h.1 answer).symm, hKeeps⟩

end Holding

section Execution

variable {World : Type u} {Label : Type v} {Op : Type w} {Answer : Op → Type x} {α β : Type y}

/-- An execution among interfering steps, with the accesses the program made. -/
inductive Execution (Interferes : World → Label → World → Prop)
    (Performs : World → (op : Op) → Answer op → World → Prop) :
    Program Op Answer α → World → List (Access World Answer) → α → World → Prop where
  | done (a : α) (s : World) : Execution Interferes Performs (.done a) s [] a s
  | ask {op : Op} {next : Answer op → Program Op Answer α} {labels : List Label}
      {s before after t : World} {answer : Answer op} {accesses : List (Access World Answer)} {a : α}
      (between : Run Interferes s labels before) (performed : Performs before op answer after)
      (rest : Execution Interferes Performs (next answer) after accesses a t) :
      Execution Interferes Performs (.ask op next) s (⟨before, op, answer, after⟩ :: accesses) a t

namespace Execution

variable {Interferes : World → Label → World → Prop}
  {Performs : World → (op : Op) → Answer op → World → Prop} {s t : World}
  {accesses : List (Access World Answer)}

theorem returns {p : Program Op Answer α} {a : α} {Q : Nat → α → Prop}
    (exec : Execution Interferes Performs p s accesses a t) (h : p.Returns Q) :
    Q accesses.length a := by
  induction exec generalizing Q with
  | done => exact h
  | ask _ _ _ ih => exact ih (h _)

theorem performs_of_mem {p : Program Op Answer α} {a : α}
    (exec : Execution Interferes Performs p s accesses a t) {access : Access World Answer}
    (h : access ∈ accesses) : Performs access.before access.op access.answer access.after := by
  induction exec with
  | done => cases h
  | ask _ performed _ ih =>
      rcases List.mem_cons.mp h with rfl | hRest
      · exact performed
      · exact ih hRest

/-- A preorder that every step respects, the environment's and the program's
own, relates the first state to every later one. -/
theorem related {p : Program Op Answer α} {a : α}
    (exec : Execution Interferes Performs p s accesses a t) (R : World → World → Prop)
    (hRefl : ∀ s, R s s) (hTrans : ∀ s t u, R s t → R t u → R s u)
    (hInterferes : ∀ s l t, Interferes s l t → R s t)
    (hAccesses : ∀ access ∈ accesses, R access.before access.after) :
    R s t ∧ ∀ access ∈ accesses, R s access.before ∧ R access.after t := by
  induction exec with
  | done => exact ⟨hRefl _, by simp⟩
  | @ask op next labels s before after t answer accesses a between performed rest ih =>
      obtain ⟨hRest, hBoth⟩ := ih fun access h => hAccesses access (List.mem_cons_of_mem _ h)
      have hBefore : R s before := between.invariant (R s)
        (fun _ _ _ hPrior hStep => hTrans _ _ _ hPrior (hInterferes _ _ _ hStep)) (hRefl s)
      have hAfter : R s after := hTrans _ _ _ hBefore (hAccesses _ (List.mem_cons_self ..))
      refine ⟨hTrans _ _ _ hAfter hRest, fun access h => ?_⟩
      rcases List.mem_cons.mp h with rfl | hLater
      · exact ⟨hBefore, hRest⟩
      · exact ⟨hTrans _ _ _ hAfter (hBoth access hLater).1, (hBoth access hLater).2⟩

theorem of_done {a b : α} (exec : Execution Interferes Performs (.done a) s accesses b t) :
    accesses = [] ∧ b = a ∧ t = s := by
  cases exec
  exact ⟨rfl, rfl, rfl⟩

/-- What comes first comes first. -/
theorem of_ask {op : Op} {next : Answer op → Program Op Answer α} {a : α}
    (exec : Execution Interferes Performs (.ask op next) s accesses a t) :
    ∃ labels before answer after later, Run Interferes s labels before ∧
      Performs before op answer after ∧ accesses = ⟨before, op, answer, after⟩ :: later ∧
        Execution Interferes Performs (next answer) after later a t := by
  cases exec with
  | ask between performed rest => exact ⟨_, _, _, _, _, between, performed, rfl, rest⟩

/-- An execution of two programs in sequence splits between them. -/
theorem of_bind {p : Program Op Answer α} {f : α → Program Op Answer β} {b : β}
    (exec : Execution Interferes Performs (p >>= f) s accesses b t) :
    ∃ a middle first later, accesses = first ++ later ∧
      Execution Interferes Performs p s first a middle ∧
        Execution Interferes Performs (f a) middle later b t := by
  induction p generalizing s accesses with
  | done a => exact ⟨a, s, [], accesses, rfl, .done a s, exec⟩
  | ask op next ih =>
      obtain ⟨labels, before, answer, after, later, hBetween, hPerformed, rfl, hRest⟩ := exec.of_ask
      obtain ⟨a, middle, first, later, rfl, hFirst, hLater⟩ := ih answer hRest
      exact ⟨a, middle, _ :: first, later, rfl, .ask hBetween hPerformed hFirst, hLater⟩

theorem of_call {op : Op} {answer : Answer op}
    {accesses : List (Access World Answer)}
    (exec : Execution Interferes Performs (call op) s accesses answer t) :
    ∃ labels before, Run Interferes s labels before ∧ Performs before op answer t ∧
      accesses = [⟨before, op, answer, t⟩] := by
  obtain ⟨labels, before, answer', after, later, hBetween, hPerformed, rfl, hRest⟩ := exec.of_ask
  obtain ⟨rfl, rfl, rfl⟩ := hRest.of_done
  exact ⟨labels, before, hBetween, hPerformed, rfl⟩

end Execution

/-- The execution without interference of operations that are functions. -/
def alone (perform : World → (op : Op) → Answer op × World) :
    Program Op Answer α → World → List (Access World Answer) × α × World
  | .done a, s => ([], a, s)
  | .ask op next, s =>
      let (answer, after) := perform s op
      let (accesses, rest) := alone perform (next answer) after
      (⟨s, op, answer, after⟩ :: accesses, rest)

theorem execution_alone {Interferes : World → Label → World → Prop}
    {Performs : World → (op : Op) → Answer op → World → Prop}
    {perform : World → (op : Op) → Answer op × World}
    (hPerform : ∀ s op, Performs s op (perform s op).1 (perform s op).2)
    (p : Program Op Answer α) (s : World) :
    Execution Interferes Performs p s (alone perform p s).1 (alone perform p s).2.1
      (alone perform p s).2.2 := by
  induction p generalizing s with
  | done a => exact .done a s
  | ask op next ih => exact .ask (.nil s) (hPerform s op) (ih _ _)

end Execution

section ForEachExecution

variable {World : Type u} {Label : Type v} {Op : Type w} {Answer : Op → Type x} {α : Type}
  {Interferes : World → Label → World → Prop}
  {Performs : World → (op : Op) → Answer op → World → Prop} {body : α → Program Op Answer Unit}

end ForEachExecution

section FilterExecution

variable {World : Type u} {Label : Type v} {Op : Type w} {Answer : Op → Type x} {α : Type}
  {Interferes : World → Label → World → Prop}
  {Performs : World → (op : Op) → Answer op → World → Prop} {test : α → Program Op Answer Bool}

/-- What the tests of the others respect, a filter of the others respects. -/
theorem Execution.filter_frame {Frame : World → World → Prop} (hRefl : ∀ s, Frame s s)
    (hTrans : ∀ s t u, Frame s t → Frame t u → Frame s u) {l : List α}
    (hTest : ∀ a ∈ l, ∀ s accesses keep t,
      Execution Interferes Performs (test a) s accesses keep t → Frame s t)
    {s t : World} {accesses : List (Access World Answer)} {kept : List α}
    (exec : Execution Interferes Performs (filter test l) s accesses kept t) : Frame s t := by
  induction l generalizing s accesses kept with
  | nil =>
      obtain ⟨-, -, rfl⟩ := exec.of_done
      exact hRefl t
  | cons a l ih =>
      obtain ⟨keep, middle, first, later, -, hFirst, hLater⟩ := exec.of_bind
      obtain ⟨rest, middle', first', later', -, hRest, hDone⟩ := hLater.of_bind
      obtain ⟨-, -, rfl⟩ := hDone.of_done
      exact hTrans _ _ _ (hTest a (List.mem_cons_self ..) _ _ _ _ hFirst)
        (ih (fun b hMem => hTest b (List.mem_cons_of_mem _ hMem)) hRest)

/-- A filter of distinct elements tests each of them once and keeps what passes.
The test of an element starts from a state that the tests of the others have
led to, and its end is theirs to change: `Frame a` is what they leave alone. -/
theorem Execution.of_filter [DecidableEq α] {Frame : α → World → World → Prop}
    (hRefl : ∀ a s, Frame a s s) (hTrans : ∀ a s t u, Frame a s t → Frame a t u → Frame a s u)
    (hTest : ∀ a b, a ≠ b → ∀ s accesses keep t,
      Execution Interferes Performs (test b) s accesses keep t → Frame a s t)
    {l : List α} (hNodup : l.Nodup) {s t : World} {accesses : List (Access World Answer)}
    {kept : List α} (exec : Execution Interferes Performs (filter test l) s accesses kept t) :
    ∃ (keep : α → Bool) (part : α → List (Access World Answer)),
      accesses = l.flatMap part ∧ kept = l.filter keep ∧
        ∀ a ∈ l, ∃ first last, Frame a s first ∧
          Execution Interferes Performs (test a) first (part a) (keep a) last ∧ Frame a last t := by
  induction l generalizing s accesses kept with
  | nil =>
      obtain ⟨rfl, rfl, -⟩ := exec.of_done
      exact ⟨fun _ => false, fun _ => [], rfl, rfl, by simp⟩
  | cons a l ih =>
      obtain ⟨hFresh, hNodup⟩ := List.nodup_cons.mp hNodup
      obtain ⟨passed, middle, first, later, rfl, hFirst, hLater⟩ := exec.of_bind
      obtain ⟨rest, middle', first', later', rfl, hRest, hDone⟩ := hLater.of_bind
      obtain ⟨rfl, rfl, rfl⟩ := hDone.of_done
      obtain ⟨keep, part, rfl, rfl, hParts⟩ := ih hNodup hRest
      have hNe : ∀ b ∈ l, b ≠ a := fun b hMem hEq => hFresh (hEq ▸ hMem)
      refine ⟨Function.update keep a passed, Function.update part a first, ?_, ?_, ?_⟩
      · have hSame : l.flatMap (Function.update part a first) = l.flatMap part := by
          refine List.flatMap_congr fun b hMem => ?_
          rw [Function.update_of_ne (hNe b hMem)]
        rw [List.flatMap_cons, Function.update_self, hSame, List.append_nil]
      · have hSame : l.filter (Function.update keep a passed) = l.filter keep := by
          refine List.filter_congr fun b hMem => ?_
          rw [Function.update_of_ne (hNe b hMem)]
        rw [List.filter_cons, Function.update_self, hSame]
      · intro b hMem
        rcases List.mem_cons.mp hMem with rfl | hOld
        · simp only [Function.update_self]
          exact ⟨s, middle, hRefl b s, hFirst, filter_frame (hRefl b) (hTrans b)
            (fun c hc => hTest b c fun hEq => hFresh (hEq ▸ hc)) hRest⟩
        · obtain ⟨start, finish, hStart, hExec, hFinish⟩ := hParts b hOld
          simp only [Function.update_of_ne (hNe b hOld)]
          exact ⟨start, finish,
            hTrans b _ _ _ (hTest b a (hNe b hOld) _ _ _ _ hFirst) hStart, hExec, hFinish⟩

end FilterExecution

end Program

end Semantics
