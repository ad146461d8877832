import Mathlib.Data.List.Basic

/-! Finite runs of labelled transition systems and of deterministic machines
that answer every event. Nothing here refers to a particular program. -/
namespace Semantics

universe u v w x

section Labelled

variable {State : Type u} {Label : Type v}

/-- A finite run of a labelled transition relation, oldest label first. -/
inductive Run (Step : State → Label → State → Prop) : State → List Label → State → Prop where
  | nil (s : State) : Run Step s [] s
  | cons {s t u : State} {l : Label} {ls : List Label}
      (first : Step s l t) (rest : Run Step t ls u) : Run Step s (l :: ls) u

namespace Run

variable {Step : State → Label → State → Prop} {s t u : State} {l : Label}
  {ls ls' : List Label}

theorem trans (left : Run Step s ls t) (right : Run Step t ls' u) :
    Run Step s (ls ++ ls') u := by
  induction left with
  | nil => exact right
  | cons first _ ih => exact .cons first (ih right)

theorem snoc (prior : Run Step s ls t) (last : Step t l u) : Run Step s (ls ++ [l]) u :=
  prior.trans (.cons last (.nil u))

/-- What every step preserves, every run preserves. -/
theorem invariant (run : Run Step s ls t) (Inv : State → Prop)
    (hStep : ∀ s l t, Inv s → Step s l t → Inv t) (hStart : Inv s) : Inv t := by
  induction run with
  | nil => exact hStart
  | cons first _ ih => exact ih (hStep _ _ _ hStart first)

/-- An invariant whose steps are only preserved for labels of the run. -/
theorem invariant_of_mem (run : Run Step s ls t) (Inv : State → Prop)
    (hStep : ∀ s, ∀ l ∈ ls, ∀ t, Inv s → Step s l t → Inv t) (hStart : Inv s) : Inv t := by
  induction run with
  | nil => exact hStart
  | cons first _ ih =>
      refine ih (fun s l hl => hStep s l (List.mem_cons_of_mem _ hl)) ?_
      exact hStep _ _ (List.mem_cons_self ..) _ hStart first

/-- An invariant that also speaks of the labels so far. -/
theorem history (run : Run Step s ls t) (Inv : List Label → State → Prop)
    (hStep : ∀ past s, ∀ l ∈ ls, ∀ t, Inv past s → Step s l t → Inv (past ++ [l]) t)
    (hStart : Inv [] s) : Inv ls t := by
  suffices hAll : ∀ past, Inv past s → Inv (past ++ ls) t from hAll [] hStart
  clear hStart
  induction run with
  | nil => exact fun past hPast => (List.append_nil past).symm ▸ hPast
  | @cons s t u l ls first _ ih =>
      intro past hPast
      have hRest := ih (fun past s m hm => hStep past s m (List.mem_cons_of_mem _ hm)) (past ++ [l])
        (hStep past s l (List.mem_cons_self ..) t hPast first)
      rwa [List.append_assoc, List.singleton_append] at hRest

/-- A machine that may refuse a label, run on labels it does not refuse. -/
theorem of_foldlM {act : State → Label → Option State} (h : ls.foldlM act s = some t) :
    Run (fun s l t => act s l = some t) s ls t := by
  induction ls generalizing s with
  | nil =>
      cases h
      exact .nil _
  | cons l ls ih =>
      rw [List.foldlM_cons] at h
      obtain ⟨next, hFirst, hRest⟩ := Option.bind_eq_some_iff.mp h
      exact .cons hFirst (ih hRest)

end Run

end Labelled

section Deterministic

variable {State : Type u} {State' : Type v} {Event : Type w} {Answer : Type x}

/-- Feed the events to a machine in order and collect its answers. -/
def replay (step : State → Event → Answer × State) : State → List Event → List Answer × State
  | s, [] => ([], s)
  | s, e :: es =>
      let first := step s e
      let rest := replay step first.2 es
      (first.1 :: rest.1, rest.2)

theorem replay_append (step : State → Event → Answer × State) (s : State) (es es' : List Event) :
    replay step s (es ++ es') =
      ((replay step s es).1 ++ (replay step (replay step s es).2 es').1,
        (replay step (replay step s es).2 es').2) := by
  induction es generalizing s with
  | nil => rfl
  | cons e es ih => simp only [List.cons_append, replay, ih]

/-- What every event preserves, a replay preserves. -/
theorem replay_invariant {step : State → Event → Answer × State} (Inv : State → Prop)
    (hStep : ∀ s e, Inv s → Inv (step s e).2) {s : State} (hStart : Inv s) (es : List Event) :
    Inv (replay step s es).2 := by
  induction es generalizing s with
  | nil => exact hStart
  | cons e es ih => exact ih (hStep s e hStart)

/-- An invariant whose events are only preserved if they are of the replay. -/
theorem replay_invariant_of_mem {step : State → Event → Answer × State} (Inv : State → Prop)
    (es : List Event) (hStep : ∀ s, ∀ e ∈ es, Inv s → Inv (step s e).2) {s : State} (hStart : Inv s) :
    Inv (replay step s es).2 := by
  induction es generalizing s with
  | nil => exact hStart
  | cons e es ih =>
      refine ih (fun s e he => hStep s e (List.mem_cons_of_mem _ he)) ?_
      exact hStep s e (List.mem_cons_self ..) hStart

/-- Two machines give the same answers when a relation between their states,
which may look ahead at the events still to come, survives every event. -/
theorem replay_simulation {step : State → Event → Answer × State}
    {step' : State' → Event → Answer × State'} {R : State → State' → List Event → Prop}
    (hStep : ∀ s s' e es, R s s' (e :: es) →
      (step s e).1 = (step' s' e).1 ∧ R (step s e).2 (step' s' e).2 es)
    (s : State) (s' : State') (es : List Event) (h : R s s' es) :
    (replay step s es).1 = (replay step' s' es).1 ∧
      R (replay step s es).2 (replay step' s' es).2 [] := by
  induction es generalizing s s' with
  | nil => exact ⟨rfl, h⟩
  | cons e es ih =>
      obtain ⟨hAnswer, hNext⟩ := hStep s s' e es h
      obtain ⟨hRest, hLast⟩ := ih _ _ hNext
      exact ⟨by simp only [replay, hAnswer, hRest], hLast⟩

end Deterministic

end Semantics
