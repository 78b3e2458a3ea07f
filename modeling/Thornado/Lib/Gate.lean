import Mathlib.Data.List.AList

/-!
# Checks with an early exit and a state

`StateT σ (Except ε)` is a sequence of fallible checks over a mutable local state (a cache).
`Computes I m R`: from every state satisfying the invariant `I`, `m` returns exactly the value
`R` holds of, keeping `I`, and fails when there is none. The relation does not mention the state,
so a cache whose invariant is `I` drops out of the specification. One rule for each construct
(`pure`, `throw`, `lift`, `bind`, `forM`, guards); `Computes.ok_iff` reads off when the whole
sequence succeeds.
-/

namespace Gate

variable {σ ε α β : Type}

theorem bind_eq_ok {x : Except ε α} {f : α → Except ε β} {b : β} :
    x >>= f = .ok b ↔ ∃ a, x = .ok a ∧ f a = .ok b := by
  cases x with
  | error e => exact ⟨fun h => (nomatch h), fun ⟨_, h, _⟩ => nomatch h⟩
  | ok a => exact ⟨fun h => ⟨a, rfl, h⟩, fun ⟨_, ha, h⟩ => by cases ha; exact h⟩

theorem toOption_eq_some {x : Except ε α} {a : α} :
    x.toOption = some a ↔ x = .ok a := by
  cases x <;> simp [Except.toOption]

/-- The value a successful computation passes on. -/
theorem bind_ok {x : Except ε α} {f : α → Except ε β} {b : β} (h : x >>= f = .ok b) :
    ∃ a, x = .ok a ∧ f a = .ok b :=
  bind_eq_ok.1 h

/-- From every state satisfying `I`, `m` returns exactly what `R` holds of and keeps `I`. -/
def Computes (I : σ → Prop) (m : StateT σ (Except ε) α) (R : α → Prop) : Prop :=
  ∀ s, I s → match m s with
    | .ok (a, s') => (∀ b, R b ↔ b = a) ∧ I s'
    | .error _ => ∀ b, ¬ R b

/-- A check: it succeeds exactly when `P` holds. -/
abbrev Checks (I : σ → Prop) (m : StateT σ (Except ε) Unit) (P : Prop) : Prop :=
  Computes I m fun _ => P

/-- A successful computation has one value. -/
theorem ok_unique {x : Except ε α} {a : α} (h : x = .ok a) (b : α) : x = .ok b ↔ b = a := by
  rw [h, Except.ok.injEq, eq_comm]

namespace Computes

variable {I : σ → Prop}

theorem pure (a : α) : Computes I (Pure.pure a : StateT σ (Except ε) α) (· = a) :=
  fun _ hs => ⟨fun _ => Iff.rfl, hs⟩

theorem throw (e : ε) :
    Computes I (throw e : StateT σ (Except ε) α) fun _ => False :=
  fun _ _ _ h => h

/-- A fallible computation that does not touch the state. -/
theorem lift (x : Except ε α) : Computes I (liftM x : StateT σ (Except ε) α) (x = .ok ·) := by
  intro s hs
  cases x with
  | error e => exact fun b h => nomatch h
  | ok a => exact ⟨ok_unique rfl, hs⟩

theorem bind {m : StateT σ (Except ε) α} {f : α → StateT σ (Except ε) β} {R : α → Prop}
    {T : α → β → Prop} (hm : Computes I m R) (hf : ∀ a, Computes I (f a) (T a)) :
    Computes I (m >>= f) fun b => ∃ a, R a ∧ T a b := by
  intro s hs
  have hms := hm s hs
  change match (m s >>= fun p => f p.1 p.2) with
    | .ok (a, s') => _
    | .error _ => _
  revert hms
  cases m s with
  | error e => exact fun hms b ⟨a, ha, _⟩ => hms a ha
  | ok p =>
    rintro ⟨hR, hI⟩
    have hfs := hf p.1 p.2 hI
    change match f p.1 p.2 with
      | .ok (a, s') => _
      | .error _ => _
    revert hfs
    cases f p.1 p.2 with
    | error e => exact fun hfs b ⟨a, ha, hT⟩ => hfs b (((hR a).1 ha) ▸ hT)
    | ok q =>
      rintro ⟨hT, hI'⟩
      refine ⟨fun b => ⟨?_, fun hb => ⟨p.1, (hR _).2 rfl, (hT b).2 hb⟩⟩, hI'⟩
      rintro ⟨a, ha, hb⟩
      exact (hT b).1 (((hR a).1 ha) ▸ hb)

/-- Only the relation's meaning matters. -/
theorem congr {m : StateT σ (Except ε) α} {R R' : α → Prop} (h : Computes I m R)
    (hR : ∀ a, R a ↔ R' a) : Computes I m R' := by
  have : R = R' := funext fun a => propext (hR a)
  exact this ▸ h

/-- Two checks in sequence. -/
theorem seq {m m' : StateT σ (Except ε) Unit} {P Q : Prop} (hm : Checks I m P)
    (hm' : Checks I m' Q) : Checks I (m >>= fun _ => m') (P ∧ Q) :=
  (hm.bind fun _ => hm').congr fun _ => ⟨fun ⟨_, h⟩ => h, fun h => ⟨(), h⟩⟩

/-- An early exit with `e` when `c` holds. -/
theorem guard {c : Prop} [Decidable c] {e : ε} {m : StateT σ (Except ε) α} {R : α → Prop}
    (hm : Computes I m R) :
    Computes I (if c then MonadExcept.throw e else m : StateT σ (Except ε) α)
      fun a => ¬ c ∧ R a := by
  by_cases hc : c
  · simp only [hc, ↓reduceIte, not_true_eq_false, false_and]
    exact throw e
  · simp only [hc, ↓reduceIte, not_false_eq_true, true_and]
    exact hm

/-- The same check of every element of a list. -/
theorem forM {f : α → StateT σ (Except ε) Unit} {P : α → Prop} (hf : ∀ a, Checks I (f a) (P a)) :
    ∀ l : List α, Checks I (l.forM f) (∀ a ∈ l, P a)
  | [] => (pure ()).congr fun _ => by simp
  | a :: l => ((hf a).seq (forM hf l)).congr fun _ => by simp

/-- When the checks started in a state satisfying the invariant succeed. -/
theorem ok_iff {m : StateT σ (Except ε) Unit} {P : Prop} (h : Checks I m P) {s : σ} (hs : I s) :
    m.run' s = .ok () ↔ P := by
  have hms := h s hs
  change (Prod.fst <$> m s) = _ ↔ _
  revert hms
  cases m s with
  | error e =>
    intro hms
    exact ⟨fun h => (nomatch h), fun hP => (hms () hP).elim⟩
  | ok p =>
    intro hms
    exact ⟨fun _ => (hms.1 ()).2 rfl, fun _ => rfl⟩

end Computes

end Gate
