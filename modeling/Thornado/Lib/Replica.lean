import Mathlib.Data.List.AList

/-!
# Replicas of a keyed state

A keyed state is a function `K → W`; a replica of it is any value of `C` that `read` reads as such
a function. A message carries a replica from one state to the next if, at every key, it either
sets the new value whatever the replica holds, or leaves the replica alone where the state did not
change (up to an equivalence `r` of values). Such messages can be replayed: a replica that starts
from a later state than a message's own ends at the last state all the same (`replay_stale`). In
the meantime it is `Between` the two: at each key it shows the one state or the other.
-/

namespace Replica

variable {K W C M : Type*}

section
variable (r : W → W → Prop) (apply : C → M → C) (read : C → K → W)

/-- The message sets the key to `w`, whatever the replica holds. -/
def Sets (m : M) (k : K) (w : W) : Prop := ∀ c, r (read (apply c m) k) w

/-- The message leaves the key as the replica has it. -/
def Leaves (m : M) (k : K) : Prop := ∀ c, read (apply c m) k = read c k

/-- The message carries every replica of `s` to one of `s'`, key by key. -/
def Carries (m : M) (s s' : K → W) : Prop :=
  ∀ k, Sets r apply read m k (s' k) ∨ (Leaves apply read m k ∧ r (s k) (s' k))

/-- The replica shows the state. -/
def Shows (c : C) (s : K → W) : Prop := ∀ k, r (read c k) (s k)

end

variable {r : W → W → Prop} {apply : C → M → C} {read : C → K → W}

/-- One key under one message: what showed the old or some later value shows the new or that
later value. -/
theorem Carries.key (hr : Equivalence r) {m : M} {s s' : K → W} (h : Carries r apply read m s s')
    {c : C} {k : K} {w : W} (hc : r (read c k) (s k) ∨ r (read c k) w) :
    r (read (apply c m) k) (s' k) ∨ r (read (apply c m) k) w := by
  rcases h k with hset | ⟨hleave, hsame⟩
  · exact .inl (hset c)
  · rw [hleave c]
    rcases hc with hc | hc
    · exact .inl (hr.trans hc hsame)
    · exact .inr hc

theorem Carries.shows (hr : Equivalence r) {m : M} {s s' : K → W}
    (h : Carries r apply read m s s') {c : C} (hc : Shows r read c s) :
    Shows r read (apply c m) s' := by
  intro k
  rcases h.key hr (w := s' k) (.inl (hc k)) with hk | hk
  · exact hk
  · exact hk

section
variable {s : Nat → K → W} {c : C} {i j : Nat}

variable (r read s) in
/-- Each key as state `i` or as state `j` has it. -/
def Between (i j : Nat) (c : C) : Prop := ∀ k, r (read c k) (s i k) ∨ r (read c k) (s j k)

theorem Between.shows (h : Between r read s i i c) : Shows r read c (s i) :=
  fun k => (h k).elim id id

/-- A message of state `i` takes a replica that is ahead at some of the keys one state on. -/
theorem Carries.between (hr : Equivalence r) {m : M}
    (hm : Carries r apply read m (s i) (s (i + 1))) (hij : i ≤ j) (hc : Between r read s i j c) :
    Between r read s (i + 1) (max j (i + 1)) (apply c m) := by
  intro k
  rcases Nat.lt_or_ge i j with hlt | hge
  · rw [Nat.max_eq_left hlt]
    exact hm.key hr (hc k)
  · obtain rfl : i = j := Nat.le_antisymm hij hge
    rw [Nat.max_eq_right (Nat.le_succ i)]
    exact .inl (hm.shows hr hc.shows k)

end

section
variable {s : Nat → K → W} {ms : List M}

/-- Messages applied in order from the state they start from. -/
theorem replay (hr : Equivalence r)
    (hms : ∀ i (hi : i < ms.length), Carries r apply read ms[i] (s i) (s (i + 1))) :
    ∀ (rest i : Nat) (c : C), i + rest = ms.length → Shows r read c (s i) →
      Shows r read ((ms.drop i).foldl apply c) (s ms.length)
  | 0, i, c, hi, hc => by
    obtain rfl : i = ms.length := by omega
    rw [List.drop_length]
    exact hc
  | rest + 1, i, c, hi, hc => by
    have hlt : i < ms.length := by omega
    rw [List.drop_eq_getElem_cons hlt, List.foldl_cons]
    exact replay hr hms rest (i + 1) _ (by omega) ((hms i hlt).shows hr hc)

/-- Up to its own state, a replica that starts ahead of the messages is at each key either at the
state the messages have come to or still at its own. -/
theorem replay_ahead (hr : Equivalence r)
    (hms : ∀ i (hi : i < ms.length), Carries r apply read ms[i] (s i) (s (i + 1))) {j : Nat}
    (hj : j ≤ ms.length) :
    ∀ (ahead i : Nat) (c : C), i + ahead = j →
      (∀ k, r (read c k) (s i k) ∨ r (read c k) (s j k)) →
      Shows r read ((ms.drop i).foldl apply c) (s ms.length)
  | 0, i, c, hi, hc => by
    obtain rfl : i = j := by omega
    refine replay hr hms (ms.length - i) i c (by omega) fun k => ?_
    rcases hc k with h | h
    · exact h
    · exact h
  | ahead + 1, i, c, hi, hc => by
    have hlt : i < ms.length := by omega
    rw [List.drop_eq_getElem_cons hlt, List.foldl_cons]
    exact replay_ahead hr hms hj ahead (i + 1) _ (by omega) fun k => (hms i hlt).key hr (hc k)

/-- **Replaying a stale prefix is harmless**: a replica that shows state `j` and applies the
messages from number `i ≤ j` on ends at the last state. -/
theorem replay_stale (hr : Equivalence r)
    (hms : ∀ i (hi : i < ms.length), Carries r apply read ms[i] (s i) (s (i + 1))) {i j : Nat}
    (hij : i ≤ j) (hj : j ≤ ms.length) {c : C} (hc : Shows r read c (s j)) :
    Shows r read ((ms.drop i).foldl apply c) (s ms.length) :=
  replay_ahead hr hms hj (j - i) i c (by omega) fun k => .inr (hc k)

end

/-! ## Sequences of messages

A list of messages is a message itself: the replica applies them in order. -/

section
variable {ms : List M} {m : M} {k : K} {w : W}

theorem leaves_nil : Leaves (List.foldl apply) read ([] : List M) k := fun _ => rfl

theorem Leaves.concat (hms : Leaves (List.foldl apply) read ms k) (hm : Leaves apply read m k) :
    Leaves (List.foldl apply) read (ms ++ [m]) k := by
  intro c
  rw [List.foldl_append]
  exact (hm _).trans (hms c)

theorem Sets.concat_leaves (hms : Sets r (List.foldl apply) read ms k w)
    (hm : Leaves apply read m k) : Sets r (List.foldl apply) read (ms ++ [m]) k w := by
  intro c
  rw [List.foldl_append, List.foldl_cons, List.foldl_nil, hm]
  exact hms c

/-- The last message decides. -/
theorem Sets.concat (hm : Sets r apply read m k w) :
    Sets r (List.foldl apply) read (ms ++ [m]) k w := by
  intro c
  rw [List.foldl_append]
  exact hm _

theorem leaves_of_forall (h : ∀ m ∈ ms, Leaves apply read m k) :
    Leaves (List.foldl apply) read ms k := by
  induction ms with
  | nil => exact leaves_nil
  | cons m ms ih =>
    intro c
    rw [List.foldl_cons, ih (fun m' hm' => h m' (List.mem_cons_of_mem m hm')) (apply c m)]
    exact h m List.mem_cons_self c

end

end Replica
