import Mathlib.Data.List.AList

/-!
# Guarded runs of a step function

`step : σ → α → Option σ` is a machine: `none` means that the action is not enabled. `Reach` is
the set of states of the runs all of whose steps meet a guard `ok` (a condition on the state
before the step and on the action); with the trivial guard it is plain reachability. An
invariant is proved once per step (`Reach.inv`), and a run of one component is a run of the whole
(`Reach.of_component`).
-/

namespace Transition

section
variable {σ α : Type} (step : σ → α → Option σ) (ok : σ → α → Prop) (init : σ → Prop)

/-- The states of the runs from `init` all of whose steps meet `ok`. -/
inductive Reach : σ → Prop
  | start {s : σ} : init s → Reach s
  | next {s s' : σ} {a : α} : Reach s → ok s a → step s a = some s' → Reach s'

/-- The state after the actions, if every one meets the guard and is enabled. -/
def run [∀ s a, Decidable (ok s a)] : σ → List α → Option σ
  | s, [] => some s
  | s, a :: as => if ok s a then (step s a).bind (run · as) else none

/-- No condition on the steps. -/
abbrev anyStep : σ → α → Prop := fun _ _ => True

end

namespace Reach

variable {σ α : Type} {step : σ → α → Option σ} {ok ok' : σ → α → Prop} {init init' : σ → Prop}

/-- What holds at the start and is kept by every step meeting the guard holds in every state. -/
theorem inv {P : σ → Prop} (h0 : ∀ s, init s → P s)
    (hs : ∀ s a s', P s → ok s a → step s a = some s' → P s') {s : σ}
    (h : Reach step ok init s) : P s := by
  induction h with
  | start hi => exact h0 _ hi
  | next _ hok hst ih => exact hs _ _ _ ih hok hst

theorem mono (hi : ∀ s, init s → init' s) (hok : ∀ s a, ok s a → ok' s a) {s : σ}
    (h : Reach step ok init s) : Reach step ok' init' s := by
  induction h with
  | start h0 => exact .start (hi _ h0)
  | next _ ho hst ih => exact .next ih (hok _ _ ho) hst

/-- The state after an executed list of actions is reached. -/
theorem of_run [∀ s a, Decidable (ok s a)] : ∀ {as : List α} {s t : σ}, Reach step ok init s →
    run step ok s as = some t → Reach step ok init t
  | [], s, t, h, hr => by
    cases hr
    exact h
  | a :: as, s, t, h, hr => by
    unfold run at hr
    split at hr
    · rename_i hok
      obtain ⟨s', hs, hr⟩ := Option.bind_eq_some_iff.1 hr
      exact of_run (.next h hok hs) hr
    · cases hr

/-- A run of a component, whose steps are steps of the whole. -/
theorem of_component {τ β : Type} {step' : τ → β → Option τ} {okay : τ → β → Prop}
    [∀ t b, Decidable (okay t b)] (put : τ → σ) (act : β → α)
    (hok : ∀ t b, okay t b → ok (put t) (act b))
    (hstep : ∀ t b u, step' t b = some u → step (put t) (act b) = some (put u)) :
    ∀ {bs : List β} {t u : τ}, Reach step ok init (put t) → run step' okay t bs = some u →
      Reach step ok init (put u)
  | [], t, u, h, hr => by
    cases hr
    exact h
  | b :: bs, t, u, h, hr => by
    unfold run at hr
    split at hr
    · rename_i hb
      obtain ⟨t', ht, hr⟩ := Option.bind_eq_some_iff.1 hr
      exact of_component put act hok hstep (.next h (hok _ _ hb) (hstep _ _ _ ht)) hr
    · cases hr

end Reach

end Transition
