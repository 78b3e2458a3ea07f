import Mathlib

/-!
# Broadcast channels

A channel keeps the last `capacity` messages for all of its receivers. A receiver that has fallen
further behind is told how many messages it lost, and goes on with the oldest message kept.

* `recv_cases`: what a receiver gets next.
* `getElem?_filter_countP`: the place of a message among those of its kind.
-/

namespace Broadcast

variable {M : Type}

/-- What `recv` returns. -/
inductive Received (M : Type) where
  | message (m : M)
  | lagged (skipped : Nat)
  deriving DecidableEq

/-- What a receiver that is at `next` of all the messages `sent` gets, and where it is then; `none`
while it waits for the next message. -/
def recv (capacity : Nat) (sent : List M) (next : Nat) : Option (Received M × Nat) :=
  if next + capacity < sent.length then
    some (.lagged (sent.length - capacity - next), sent.length - capacity)
  else sent[next]?.map fun m => (.message m, next + 1)

variable {capacity next next' : Nat} {sent : List M} {got : Received M}

theorem recv_cases (h : recv capacity sent next = some (got, next')) :
    (∃ skipped, got = .lagged skipped ∧ next' ≤ sent.length) ∨
    ∃ m, got = .message m ∧ sent[next]? = some m ∧ next' = next + 1 := by
  unfold recv at h
  split at h
  · cases h
    exact .inl ⟨_, rfl, Nat.sub_le ..⟩
  · obtain ⟨m, hm, h⟩ := Option.map_eq_some_iff.1 h
    cases h
    exact .inr ⟨m, rfl, hm, rfl⟩

/-! ## Messages of one kind -/

section
variable {p : M → Bool} {m : M}

theorem countP_take_add_one (h : sent[next]? = some m) :
    (sent.take (next + 1)).countP p = (sent.take next).countP p + if p m then 1 else 0 := by
  rw [List.take_add_one, h, List.countP_append]
  simp

/-- A message of the kind comes after as many of them as there are before it. -/
theorem getElem?_filter_countP (h : sent[next]? = some m) (hp : p m = true) :
    (sent.filter p)[(sent.take next).countP p]? = some m := by
  obtain ⟨hlt, rfl⟩ := List.getElem?_eq_some_iff.1 h
  have hsplit : sent.filter p =
      (sent.take next).filter p ++ (sent[next] :: sent.drop (next + 1)).filter p := by
    rw [← List.filter_append, ← List.drop_eq_getElem_cons hlt, List.take_append_drop]
  rw [hsplit, List.countP_eq_length_filter, List.getElem?_append_right (Nat.le_refl _),
    Nat.sub_self, List.filter_cons_of_pos hp, List.getElem?_cons_zero]

end

end Broadcast
