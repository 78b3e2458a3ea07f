import Mathlib.Order.Lattice
import Mathlib.Data.List.Induction

/-!
# One-shot tickets with a deadline

Tickets are put and taken at times. A ticket is live since the last time it was put, until it is
taken (`Live`); what holds of one ticket depends on the operations on that ticket only. A store
that keeps the deadlines of the live tickets, and may forget or keep those that have passed
(`Tracks`), answers a take as the history does (`Tracks.answer`).
-/

namespace Tickets

inductive Op (N : Type*) where
  | put (ticket : N)
  | take (ticket : N)
  deriving DecidableEq

def Op.ticket {N : Type*} : Op N → N
  | .put n | .take n => n

variable {T N : Type*}

/-- In a history, oldest first: the ticket was last put at `p`, and not taken since. -/
def Live (history : List (T × Op N)) (n : N) (p : T) : Prop :=
  ∃ before since, history = before ++ (p, .put n) :: since ∧ ∀ e ∈ since, e.2.ticket ≠ n

/-! ## The history of a ticket -/

theorem live_append {h : List (T × Op N)} {n : N} {p t : T} {op : Op N} :
    Live (h ++ [(t, op)]) n p ↔ (op = .put n ∧ p = t) ∨ (op.ticket ≠ n ∧ Live h n p) := by
  constructor
  · rintro ⟨before, since, heq, hsince⟩
    -- the operation is the put itself, or one that came later
    rcases since.eq_nil_or_concat with rfl | ⟨since, last, rfl⟩
    · obtain ⟨-, hlast⟩ := List.append_inj' heq rfl
      cases hlast
      exact .inl ⟨rfl, rfl⟩
    · have hsnoc : h ++ [(t, op)] = (before ++ (p, .put n) :: since) ++ [last] := by
        simpa using heq
      obtain ⟨rfl, hlast⟩ := List.append_inj' hsnoc rfl
      cases hlast
      exact .inr ⟨hsince (t, op) (by simp), before, since, rfl,
        fun e he => hsince e (by simp [he])⟩
  · rintro (⟨rfl, rfl⟩ | ⟨hne, before, since, rfl, hsince⟩)
    · exact ⟨h, [], rfl, fun _ he => nomatch he⟩
    · refine ⟨before, since ++ [(t, op)], by simp, fun e he => ?_⟩
      rcases List.mem_append.1 he with he | he
      · exact hsince e he
      · rw [List.mem_singleton.1 he]
        exact hne

theorem live_append_other {h : List (T × Op N)} {n : N} {p t : T} {op : Op N}
    (hne : op.ticket ≠ n) : Live (h ++ [(t, op)]) n p ↔ Live h n p := by
  rw [live_append]
  refine ⟨?_, fun hl => .inr ⟨hne, hl⟩⟩
  rintro (⟨rfl, -⟩ | ⟨-, hl⟩)
  · exact absurd rfl hne
  · exact hl

theorem live_append_put {h : List (T × Op N)} {n : N} {p t : T} :
    Live (h ++ [(t, .put n)]) n p ↔ p = t := by
  simp [live_append, Op.ticket]

theorem not_live_append_take {h : List (T × Op N)} {n : N} {p t : T} :
    ¬ Live (h ++ [(t, .take n)]) n p := by
  simp [live_append, Op.ticket]

theorem Live.mem {h : List (T × Op N)} {n : N} {p : T} (hlive : Live h n p) : (p, .put n) ∈ h := by
  obtain ⟨before, since, rfl, -⟩ := hlive
  simp

/-! ## Spent tickets -/

/-- The ticket was put, and the last time it was put it was taken. -/
def Spent (history : List (T × Op N)) (n : N) : Prop :=
  (∃ p, (p, Op.put n) ∈ history) ∧ ∀ p, ¬ Live history n p

theorem Spent.append_take {h : List (T × Op N)} {n : N} (hspent : Spent h n) (t : T) (m : N) :
    Spent (h ++ [(t, .take m)]) n := by
  refine ⟨hspent.1.imp fun p hp => List.mem_append_left _ hp, fun p hlive => ?_⟩
  rcases live_append.1 hlive with ⟨heq, -⟩ | ⟨-, hlive⟩
  · cases heq
  · exact hspent.2 p hlive

/-- A put of another ticket. -/
theorem Spent.append_put {h : List (T × Op N)} {n m : N} (hspent : Spent h n) (t : T)
    (hne : m ≠ n) : Spent (h ++ [(t, .put m)]) n := by
  refine ⟨hspent.1.imp fun p hp => List.mem_append_left _ hp, fun p hlive => ?_⟩
  exact hspent.2 p ((live_append_other (show (Op.put m).ticket ≠ n from hne)).1 hlive)

theorem Live.spent_take {h : List (T × Op N)} {n : N} {p : T} (hlive : Live h n p) (t : T) :
    Spent (h ++ [(t, .take n)]) n :=
  ⟨⟨p, List.mem_append_left _ hlive.mem⟩, fun _ => not_live_append_take⟩

/-! ## The operations on a ticket -/

/-- The operations on other tickets do not matter. -/
theorem live_filter [DecidableEq N] {h : List (T × Op N)} {n : N} {p : T} :
    Live (h.filter (·.2.ticket = n)) n p ↔ Live h n p := by
  induction h using List.reverseRecOn with
  | nil => exact Iff.rfl
  | append_singleton h e ih =>
    obtain ⟨t, op⟩ := e
    by_cases hop : op.ticket = n
    · rw [List.filter_append, List.filter_cons_of_pos (by simpa using hop), List.filter_nil]
      rw [live_append, live_append, ih]
    · rw [List.filter_append, List.filter_cons_of_neg (by simpa using hop), List.filter_nil,
        List.append_nil, ih, live_append_other hop]

/-! ## Stores of deadlines -/

section
variable [LinearOrder T] (deadline : T → T)

/-- At this time the store has the deadlines of the live tickets, up to those that have passed. -/
structure Tracks (clock : T) (h : List (T × Op N)) (read : N → Option T) : Prop where
  kept : ∀ n p, Live h n p → read n = some (deadline p) ∨ deadline p < clock
  sound : ∀ n e, read n = some e → (∃ p, Live h n p ∧ e = deadline p) ∨ e < clock

/-- Some deadlines that have passed at this time are forgotten. -/
def Prunes (now : T) (read read' : N → Option T) : Prop :=
  ∀ n, read' n = read n ∨ read' n = none ∧ ∀ e ∈ read n, e < now

end

section
variable [LinearOrder T] {deadline : T → T} {clock now : T} {h : List (T × Op N)}
  {read read' : N → Option T}

theorem Tracks.start : Tracks deadline clock ([] : List (T × Op N)) fun _ => none where
  kept n p hp := by
    obtain ⟨before, since, heq, -⟩ := hp
    cases before <;> cases heq
  sound _ _ he := nomatch he

theorem Tracks.prune (htracks : Tracks deadline clock h read) (hle : clock ≤ now)
    (hprunes : Prunes now read read') : Tracks deadline now h read' := by
  constructor
  · intro n p hp
    rcases htracks.kept n p hp with hread | hpast
    · rcases hprunes n with heq | ⟨-, hpast⟩
      · exact .inl (heq.trans hread)
      · exact .inr (hpast _ hread)
    · exact .inr (lt_of_lt_of_le hpast hle)
  · intro n e he
    rcases hprunes n with heq | ⟨hnone, -⟩
    · rw [heq] at he
      rcases htracks.sound n e he with hlive | hpast
      · exact .inl hlive
      · exact .inr (lt_of_lt_of_le hpast hle)
    · rw [hnone] at he
      cases he

theorem Tracks.mono (htracks : Tracks deadline clock h read) (hle : clock ≤ now) :
    Tracks deadline now h read :=
  htracks.prune hle fun _ => .inl rfl

/-- A put stores the deadline of its ticket. -/
theorem Tracks.put [DecidableEq N] (htracks : Tracks deadline clock h read) (hle : clock ≤ now)
    (m : N) (hread : ∀ n, read' n = if n = m then some (deadline now) else read n) :
    Tracks deadline now (h ++ [(now, .put m)]) read' := by
  constructor
  · intro n p hp
    rw [hread n]
    split
    · rename_i hn
      subst hn
      rw [live_append_put.1 hp]
      exact .inl rfl
    · rename_i hn
      rcases htracks.kept n p ((live_append_other fun heq => hn heq.symm).1 hp) with hk | hpast
      · exact .inl hk
      · exact .inr (lt_of_lt_of_le hpast hle)
  · intro n e he
    rw [hread n] at he
    split at he
    · rename_i hn
      subst hn
      cases he
      exact .inl ⟨now, live_append_put.2 rfl, rfl⟩
    · rename_i hn
      rcases htracks.sound n e he with ⟨p, hp, rfl⟩ | hpast
      · exact .inl ⟨p, (live_append_other fun heq => hn heq.symm).2 hp, rfl⟩
      · exact .inr (lt_of_lt_of_le hpast hle)

/-- After a take its ticket is not in the store, unless its deadline has passed. -/
theorem Tracks.take [DecidableEq N] (htracks : Tracks deadline clock h read) (hle : clock ≤ now)
    (m : N) (hother : ∀ n, n ≠ m → read' n = read n) (hself : ∀ e ∈ read' m, e < now) :
    Tracks deadline now (h ++ [(now, .take m)]) read' := by
  constructor
  · intro n p hp
    have hn : n ≠ m := by
      rintro rfl
      exact not_live_append_take hp
    rw [hother n hn]
    rcases htracks.kept n p ((live_append_other fun heq => hn heq.symm).1 hp) with hk | hpast
    · exact .inl hk
    · exact .inr (lt_of_lt_of_le hpast hle)
  · intro n e he
    by_cases hn : n = m
    · subst hn
      exact .inr (hself e he)
    · rw [hother n hn] at he
      rcases htracks.sound n e he with ⟨p, hp, rfl⟩ | hpast
      · exact .inl ⟨p, (live_append_other fun heq => hn heq.symm).2 hp, rfl⟩
      · exact .inr (lt_of_lt_of_le hpast hle)

/-- **The answer to a take**: a stored deadline that has not passed is that of a live ticket. -/
theorem Tracks.answer (htracks : Tracks deadline clock h read) (hle : clock ≤ now) (n : N) :
    (∃ e, read n = some e ∧ now ≤ e) ↔ ∃ p, Live h n p ∧ now ≤ deadline p := by
  constructor
  · rintro ⟨e, he, hnow⟩
    rcases htracks.sound n e he with ⟨p, hp, rfl⟩ | hpast
    · exact ⟨p, hp, hnow⟩
    · exact absurd (lt_of_lt_of_le hpast hle) (not_lt.2 hnow)
  · rintro ⟨p, hp, hnow⟩
    rcases htracks.kept n p hp with hread | hpast
    · exact ⟨_, hread, hnow⟩
    · exact absurd (lt_of_lt_of_le hpast hle) (not_lt.2 hnow)

end

end Tickets
