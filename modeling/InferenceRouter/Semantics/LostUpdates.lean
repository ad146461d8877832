import InferenceRouter.Semantics.Threads

/-! Threads that update one cell, each by a load and a later store. A store may
overwrite the stores of other threads, so what holds of the cell must hold of
every value that is still to be stored. -/
namespace Semantics

universe u v

inductive CellOp (Value : Type u) where
  | load
  | store (value : Value)

def CellOp.Answer {Value : Type u} : CellOp Value → Type u
  | .load => Value
  | .store _ => PUnit

def CellOp.perform {Value : Type u} (cell : Value) : (op : CellOp Value) → op.Answer × Value
  | .load => (cell, cell)
  | .store value => (.unit, value)

/-- Load the value, then store what `f` makes of it. -/
def update {Value : Type u} (f : Value → Value) : Program (CellOp Value) CellOp.Answer PUnit.{u + 1} :=
  .ask .load fun old => .ask (.store (f old)) .done

namespace Threads

variable {Call : Type v} {Value : Type u} {f : Call → Value → Value}
  {body : Call → Program (CellOp Value) CellOp.Answer PUnit.{u + 1}} {initial : Value}

/-- A program that has not stored its value yet, and what it may still store. -/
inductive Pending (f : Call → Value → Value) (Good : Value → Prop) (started : List Call) :
    Program (CellOp Value) CellOp.Answer PUnit.{u + 1} → Prop where
  | load (call : Call) (hCall : call ∈ started) : Pending f Good started (update (f call))
  | store (value : Value) (hGood : Good value) : Pending f Good started (.ask (.store value) .done)
  | done : Pending f Good started (.done .unit)

theorem Pending.mono {Good Good' : Value → Prop} {started : List Call} {call : Call}
    {program : Program (CellOp Value) CellOp.Answer PUnit.{u + 1}} (h : Pending f Good started program)
    (hGood : ∀ value, Good value → Good' value) : Pending f Good' (started ++ [call]) program := by
  cases h with
  | load call' hCall => exact .load call' (List.mem_append_left _ hCall)
  | store value h => exact .store value (hGood value h)
  | done => exact .done

/-- The cell has its first value until there is a store, and a good one from then on. -/
structure Updating (f : Call → Value → Value) (initial : Value) (Good : Value → Prop)
    (started : List Call) (s : Threads Value (CellOp Value) CellOp.Answer PUnit.{u + 1}) : Prop where
  pending : ∀ program ∈ s.programs, Pending f Good started program
  cell : s.results = [] ∧ s.world = initial ∨ s.results ≠ [] ∧ Good s.world

section Steps

variable {Good : Value → Prop} {started : List Call} {world : Value}
  {before after : List (Program (CellOp Value) CellOp.Answer PUnit.{u + 1})}

theorem Updating.start {Good' : Value → Prop}
    {s : Threads Value (CellOp Value) CellOp.Answer PUnit.{u + 1}}
    (h : Updating f initial Good started s) (hGood : ∀ value, Good value → Good' value) (call : Call) :
    Updating f initial Good' (started ++ [call]) { s with programs := s.programs ++ [update (f call)] } := by
  have hResults : Threads.results { s with programs := s.programs ++ [update (f call)] } = s.results :=
    results_start rfl s
  refine ⟨List.forall_mem_append.mpr ⟨fun program hOld => (h.pending program hOld).mono hGood, ?_⟩, ?_⟩
  · exact List.forall_mem_singleton.mpr (.load call (List.mem_append_right _ (List.mem_singleton_self call)))
  · rw [hResults]
    exact h.cell.imp_right fun hCell => ⟨hCell.1, hGood _ hCell.2⟩

theorem Updating.load {call : Call}
    (hUpdate : ∀ value, value = initial ∨ Good value → Good (f call value))
    (h : Updating f initial Good started { world, programs := before ++ update (f call) :: after }) :
    Updating f initial Good started
      { world, programs := before ++ .ask (.store (f call world)) .done :: after } := by
  have hCell := h.cell
  have hResults : Threads.results { world, programs := before ++ .ask (.store (f call world)) .done :: after } =
      Threads.results { world, programs := before ++ update (f call) :: after } := by
    rw [results_append, results_append]
    rfl
  refine ⟨forall_programs_replace h.pending (.store _ (hUpdate world ?_)), hResults ▸ hCell⟩
  exact hCell.imp And.right And.right

theorem Updating.store {value : Value} (hGood : Good value)
    (h : Updating f initial Good started { world, programs := before ++ .ask (.store value) .done :: after }) :
    Updating f initial Good started { world := value, programs := before ++ .done .unit :: after } := by
  refine ⟨forall_programs_replace h.pending .done, .inr ⟨?_, hGood⟩⟩
  rw [results_append]
  exact List.append_ne_nil_of_right_ne_nil _ (List.cons_ne_nil _ _)

end Steps

/-- If an update makes a good value of the initial one and of each good one, then the
cell is good as soon as there was a store, whatever stores were overwritten. -/
theorem run_updates (hBody : ∀ call, body call = update (f call)) {Good : List Call → Value → Prop}
    (hMono : ∀ started call value, Good started value → Good (started ++ [call]) value)
    (hUpdate : ∀ started, ∀ call ∈ started, ∀ value, value = initial ∨ Good started value →
      Good started (f call value))
    (schedule : List (Turn Call)) :
    Updating f initial (Good (calls schedule)) (calls schedule)
      (run body CellOp.perform initial schedule) := by
  refine run_invariant (fun (schedule : List (Turn Call)) s =>
    Updating f initial (Good (calls schedule)) (calls schedule) s) ?_ ?_ ?_ ?_ schedule
  · exact ⟨by simp, .inl ⟨rfl, rfl⟩⟩
  · intro schedule call s h
    rw [calls_start, hBody]
    exact h.start (hMono _ call) call
  · intro schedule thread s h
    rwa [calls_resume]
  · intro schedule thread world before op next after h
    rw [calls_resume]
    generalize hProgram : Program.ask op next = program at h
    cases h.pending program (List.mem_append_right _ (List.mem_cons_self ..)) with
    | load call hCall =>
        cases hProgram
        exact h.load (hUpdate _ call hCall)
    | store value hGood =>
        cases hProgram
        exact h.store hGood
    | done => cases hProgram

/-- What some updates make of the first value, one after the other. -/
def serial (f : Call → Value → Value) (initial : Value) (updates : List Call) : Value :=
  updates.foldl (fun value call => f call value) initial

theorem serial_concat (updates : List Call) (call : Call) :
    serial f initial (updates ++ [call]) = f call (serial f initial updates) :=
  List.foldl_concat ..

/-- The calls of some threads. -/
def callsOf (started : List Call) (who : List Nat) : List Call := who.filterMap fun i => started[i]?

/-- A thread that is over stays so when another goes on. -/
theorem getElem?_over {before after : List (Program (CellOp Value) CellOp.Answer PUnit.{u + 1})} {i : Nat}
    {program : Program (CellOp Value) CellOp.Answer PUnit.{u + 1}}
    (h : (before ++ program :: after)[i]? = some (.done .unit)) (hOpen : program ≠ .done .unit)
    (program' : Program (CellOp Value) CellOp.Answer PUnit.{u + 1}) :
    (before ++ program' :: after)[i]? = some (.done .unit) := by
  by_cases hHere : i = before.length
  · subst hHere
    rw [List.getElem?_append_right le_rfl, Nat.sub_self, List.getElem?_cons_zero, Option.some.injEq] at h
    exact absurd h hOpen
  · rwa [← getElem?_replace hHere program program']

/-- A value that threads which are over have made, each by one update of what the one
before it made. -/
structure Survivors (f : Call → Value → Value) (initial : Value) (started : List Call)
    (programs : List (Program (CellOp Value) CellOp.Answer PUnit.{u + 1})) (value : Value) (who : List Nat) : Prop where
  nodup : who.Nodup
  ended : ∀ i ∈ who, programs[i]? = some (.done .unit)
  value : value = serial f initial (callsOf started who)

namespace Survivors

variable {started : List Call} {programs programs' : List (Program (CellOp Value) CellOp.Answer PUnit.{u + 1})}
  {value : Value} {who : List Nat}

theorem mono (h : Survivors f initial started programs value who)
    (hOver : ∀ i : Nat, programs[i]? = some (.done .unit) → programs'[i]? = some (.done .unit)) :
    Survivors f initial started programs' value who :=
  ⟨h.nodup, fun i hi => hOver i (h.ended i hi), h.value⟩

theorem start (h : Survivors f initial started programs value who) (hLength : programs.length = started.length)
    (call : Call) (program : Program (CellOp Value) CellOp.Answer PUnit.{u + 1}) :
    Survivors f initial (started ++ [call]) (programs ++ [program]) value who := by
  have hLt (i : Nat) (hi : i ∈ who) : i < programs.length :=
    (List.getElem?_eq_some_iff.mp (h.ended i hi)).1
  refine ⟨h.nodup, fun i hi => ?_, ?_⟩
  · rw [List.getElem?_append_left (hLt i hi)]
    exact h.ended i hi
  · have hCalls : callsOf (started ++ [call]) who = callsOf started who :=
      List.filterMap_congr fun i hi => List.getElem?_append_left (hLength ▸ hLt i hi)
    rw [hCalls]
    exact h.value

/-- The others do not notice that one goes on. -/
theorem replace {before after : List (Program (CellOp Value) CellOp.Answer PUnit.{u + 1})}
    {program : Program (CellOp Value) CellOp.Answer PUnit.{u + 1}}
    (h : Survivors f initial started (before ++ program :: after) value who) (hOpen : program ≠ .done .unit)
    (program' : Program (CellOp Value) CellOp.Answer PUnit.{u + 1}) :
    Survivors f initial started (before ++ program' :: after) value who :=
  h.mono fun _ hi => getElem?_over hi hOpen program'

/-- A thread stores what it makes of a value that others have made. -/
theorem store {i : Nat} {call : Call} {before after : List (Program (CellOp Value) CellOp.Answer PUnit.{u + 1})}
    {program : Program (CellOp Value) CellOp.Answer PUnit.{u + 1}}
    (h : Survivors f initial started (before ++ program :: after) value who) (hOpen : program ≠ .done .unit)
    (hPlace : i = before.length) (hCall : started[i]? = some call) :
    Survivors f initial started (before ++ .done .unit :: after) (f call value) (who ++ [i]) := by
  subst hPlace
  have hNew : before.length ∉ who := fun hMem => by
    have hOver := h.ended _ hMem
    rw [List.getElem?_append_right le_rfl, Nat.sub_self, List.getElem?_cons_zero, Option.some.injEq] at hOver
    exact hOpen hOver
  refine ⟨List.nodup_append.mpr ⟨h.nodup, List.nodup_singleton _, ?_⟩, ?_, ?_⟩
  · rintro j hj k hk rfl
    exact hNew (List.mem_singleton.mp hk ▸ hj)
  · intro j hj
    rw [List.mem_append, List.mem_singleton] at hj
    rcases hj with hOld | rfl
    · exact getElem?_over (h.ended j hOld) hOpen _
    · simp
  · rw [callsOf, List.filterMap_append, List.filterMap_cons, hCall, List.filterMap_nil, serial_concat, ← callsOf,
      ← h.value]

end Survivors

/-- Where an update stands. The value it still stores comes from one that others made. -/
inductive Stage (f : Call → Value → Value) (initial : Value) (started : List Call)
    (programs : List (Program (CellOp Value) CellOp.Answer PUnit.{u + 1})) (call : Call) :
    Program (CellOp Value) CellOp.Answer PUnit.{u + 1} → Prop where
  | load : Stage f initial started programs call (update (f call))
  | store (value : Value) (who : List Nat) (h : Survivors f initial started programs value who) :
      Stage f initial started programs call (.ask (.store (f call value)) .done)
  | done : Stage f initial started programs call (.done .unit)

/-- The cell, and whatever is still to be stored, come from updates one after the other. -/
structure Serial (f : Call → Value → Value) (initial : Value) (started : List Call)
    (s : Threads Value (CellOp Value) CellOp.Answer PUnit.{u + 1}) : Prop where
  length : s.programs.length = started.length
  cell : ∃ who, Survivors f initial started s.programs s.world who
  stage : ∀ (i : Nat) program, s.programs[i]? = some program →
    ∃ call, started[i]? = some call ∧ Stage f initial started s.programs call program

theorem Serial.start {started : List Call} {s : Threads Value (CellOp Value) CellOp.Answer PUnit.{u + 1}}
    (h : Serial f initial started s) (call : Call) :
    Serial f initial (started ++ [call]) { s with programs := s.programs ++ [update (f call)] } := by
  obtain ⟨who, hCell⟩ := h.cell
  refine ⟨by simp [h.length], ⟨who, hCell.start h.length call _⟩, fun i program hProgram => ?_⟩
  by_cases hOld : i < s.programs.length
  · rw [List.getElem?_append_left hOld] at hProgram
    obtain ⟨call', hCall, hStage⟩ := h.stage i program hProgram
    refine ⟨call', by rw [List.getElem?_append_left (h.length ▸ hOld), hCall], ?_⟩
    cases hStage with
    | load => exact .load
    | store value who hValue => exact .store value who (hValue.start h.length call _)
    | done => exact .done
  · have hLt := (List.getElem?_eq_some_iff.mp hProgram).1
    rw [List.length_append, List.length_singleton] at hLt
    obtain rfl : i = s.programs.length := by omega
    rw [List.getElem?_concat_length, Option.some.injEq] at hProgram
    subst hProgram
    exact ⟨call, by rw [h.length, List.getElem?_concat_length], .load⟩

section SerialSteps

variable {started : List Call} {world : Value} {program program' : Program (CellOp Value) CellOp.Answer PUnit.{u + 1}}
  {before after : List (Program (CellOp Value) CellOp.Answer PUnit.{u + 1})}

/-- One thread goes on, and the others are where they were. -/
theorem Serial.replace {world' : Value} (h : Serial f initial started { world, programs := before ++ program :: after })
    (hOpen : program ≠ .done .unit)
    (hCell : ∃ who, Survivors f initial started (before ++ program' :: after) world' who)
    (hStage : ∀ call, started[before.length]? = some call →
      Stage f initial started (before ++ program' :: after) call program') :
    Serial f initial started { world := world', programs := before ++ program' :: after } := by
  refine ⟨?_, hCell, fun i other hOther => ?_⟩
  · rw [← h.length]
    simp
  · by_cases hHere : i = before.length
    · subst hHere
      obtain ⟨call, hCall, -⟩ := h.stage before.length program (by simp)
      obtain rfl : program' = other := by simpa using hOther
      exact ⟨call, hCall, hStage call hCall⟩
    · obtain ⟨call, hCall, hOld⟩ := h.stage i other ((getElem?_replace hHere program program').trans hOther)
      refine ⟨call, hCall, ?_⟩
      cases hOld with
      | load => exact .load
      | store value who hValue => exact .store value who (hValue.replace hOpen program')
      | done => exact .done

theorem Serial.perform {op : CellOp Value}
    {next : op.Answer → Program (CellOp Value) CellOp.Answer PUnit.{u + 1}}
    (h : Serial f initial started { world, programs := before ++ .ask op next :: after }) :
    Serial f initial started
      { world := (CellOp.perform world op).2, programs := before ++ next (CellOp.perform world op).1 :: after } := by
  obtain ⟨who, hCell⟩ := h.cell
  obtain ⟨call, hCall, hStage⟩ := h.stage before.length (.ask op next) (by simp)
  have hOpen : Program.ask op next ≠ .done .unit := fun hSame => by cases hSame
  have hKept (program' : Program (CellOp Value) CellOp.Answer PUnit.{u + 1}) {value : Value} {who : List Nat}
      (hValue : Survivors f initial started (before ++ .ask op next :: after) value who) :
      Survivors f initial started (before ++ program' :: after) value who :=
    hValue.replace hOpen program'
  generalize hProgram : Program.ask op next = program at h hStage hCell
  cases hStage with
  | load =>
      cases hProgram
      refine h.replace hOpen ⟨who, hKept _ hCell⟩ fun call' hCall' => ?_
      obtain rfl : call = call' := Option.some.inj (hCall.symm.trans hCall')
      exact .store world who (hKept _ hCell)
  | store value who' hValue =>
      cases hProgram
      exact h.replace hOpen ⟨who' ++ [before.length], hValue.store hOpen rfl hCall⟩ fun _ _ => .done
  | done => cases hProgram

end SerialSteps

/-- The cell is always what some of the updates that are over make of its first value,
one after the other and each at most once: an update can be lost, and that is all. -/
theorem run_serial (hBody : ∀ call, body call = update (f call)) (schedule : List (Turn Call)) :
    Serial f initial (calls schedule) (run body CellOp.perform initial schedule) := by
  refine run_invariant (fun (schedule : List (Turn Call)) s => Serial f initial (calls schedule) s) ?_ ?_ ?_ ?_ schedule
  · exact ⟨rfl, ⟨[], List.nodup_nil, by simp, rfl⟩, by simp⟩
  · intro schedule call s h
    rw [calls_start, hBody]
    exact h.start call
  · intro schedule thread s h
    rwa [calls_resume]
  · intro schedule thread world before op next after h
    rw [calls_resume]
    exact h.perform

end Threads

end Semantics
