import Mathlib.Data.List.Chain
import Mathlib.Logic.Function.Basic

/-!
# Timelines of a keyed state, and partial replicas

A keyed state `K → Option V` is changed by writes at increasing times; `stateAt` is the state with
all the writes up to a time. A partial replica knows the state at some keys only, and moves from
one time to a later one by a batch: the values at the later time of every key written in between,
and maybe of others. A batch may begin before the replica's time: what it lists is absolute.

* `stateAt_window`: a key no write of a window touches has one value all through the window.
* `Agrees.advance`: a batch that covers the writes since the replica's time keeps it in agreement.
* `contiguous_cases`: of two different windows of a contiguous list one ends before the other.
-/

namespace Timeline

variable {K V : Type*}

/-- A write at a time: the key's new value, or its removal. -/
structure Write (K V : Type*) where
  ts : Nat
  key : K
  value : Option V

section
variable [DecidableEq K]

def write (state : K → Option V) (w : Write K V) : K → Option V :=
  Function.update state w.key w.value

/-- The state with the writes up to time `t`. -/
def stateAt (init : K → Option V) (ws : List (Write K V)) (t : Nat) : K → Option V :=
  (ws.filter fun w => w.ts ≤ t).foldl write init

theorem stateAt_cons_le {init : K → Option V} {w : Write K V} {ws : List (Write K V)} {t : Nat}
    (h : w.ts ≤ t) : stateAt init (w :: ws) t = stateAt (write init w) ws t := by
  unfold stateAt
  rw [List.filter_cons_of_pos (by simpa using h), List.foldl_cons]

theorem stateAt_cons_lt {init : K → Option V} {w : Write K V} {ws : List (Write K V)} {t : Nat}
    (h : t < w.ts) : stateAt init (w :: ws) t = stateAt init ws t := by
  unfold stateAt
  rw [List.filter_cons_of_neg (by simp only [decide_eq_true_eq]; omega)]

/-- Before its first write a timeline is at its initial state. -/
theorem stateAt_before {init : K → Option V} {ws : List (Write K V)} {t : Nat}
    (h : ∀ w ∈ ws, t < w.ts) : stateAt init ws t = init := by
  induction ws with
  | nil => rfl
  | cons w ws ih =>
    rw [stateAt_cons_lt (h w List.mem_cons_self)]
    exact ih fun w' hw' => h w' (List.mem_cons_of_mem w hw')

/-- **Window invariance**: a key that no write after `t` and up to `t'` touches. -/
theorem stateAt_window {ws : List (Write K V)} (hs : ws.Pairwise (·.ts < ·.ts)) {t t' : Nat}
    (ht : t ≤ t') {k : K} : ∀ {init : K → Option V},
    (∀ w ∈ ws, t < w.ts → w.ts ≤ t' → w.key ≠ k) →
      stateAt init ws t' k = stateAt init ws t k := by
  induction ws with
  | nil => intro init _; rfl
  | cons w ws ih =>
    intro init hk
    obtain ⟨hlater, hs⟩ := List.pairwise_cons.1 hs
    have hrest : ∀ w' ∈ ws, t < w'.ts → w'.ts ≤ t' → w'.key ≠ k := fun w' hw' =>
      hk w' (List.mem_cons_of_mem w hw')
    by_cases h : w.ts ≤ t
    · rw [stateAt_cons_le h, stateAt_cons_le (Nat.le_trans h ht)]
      exact ih hs hrest
    · rw [Nat.not_le] at h
      have hbefore : stateAt init ws t = init :=
        stateAt_before fun w' hw' => Nat.lt_trans h (hlater w' hw')
      rw [stateAt_cons_lt h]
      by_cases h' : w.ts ≤ t'
      · have hne := hk w List.mem_cons_self h h'
        rw [stateAt_cons_le h', ih hs hrest, hbefore,
          stateAt_before fun w' hw' => Nat.lt_trans h (hlater w' hw')]
        exact Function.update_of_ne (Ne.symm hne) ..
      · rw [Nat.not_le] at h'
        rw [stateAt_cons_lt h']
        exact ih hs hrest

/-! ## Partial replicas -/

/-- The replica has the truth at the keys it knows, and nothing at the others. -/
structure Agrees (truth : K → Option V) (known : K → Prop) (replica : K → Option V) : Prop where
  at_known : ∀ k, known k → replica k = truth k
  elsewhere : ∀ k, ¬ known k → replica k = none

/-- Every write after `lo` and up to `hi` is to a listed key. -/
def Covers (ws : List (Write K V)) (lo hi : Nat) (listed : K → Prop) : Prop :=
  ∀ w ∈ ws, lo < w.ts → w.ts ≤ hi → listed w.key

/-- **A batch advances a replica**: `lo ≤ t ≤ hi`, so the batch covers the writes since `t`. -/
theorem Agrees.advance {init : K → Option V} {ws : List (Write K V)}
    (hs : ws.Pairwise (·.ts < ·.ts)) {lo t hi : Nat} {known listed : K → Prop}
    {replica replica' : K → Option V} (h : Agrees (stateAt init ws t) known replica)
    (hlo : lo ≤ t) (hhi : t ≤ hi) (hcov : Covers ws lo hi listed)
    (hset : ∀ k, listed k → replica' k = stateAt init ws hi k)
    (hkeep : ∀ k, ¬ listed k → replica' k = replica k) :
    Agrees (stateAt init ws hi) (fun k => known k ∨ listed k) replica' := by
  refine ⟨fun k hk => ?_, fun k hk => ?_⟩
  · by_cases hl : listed k
    · exact hset k hl
    · have hold := h.at_known k (hk.resolve_right hl)
      rw [hkeep k hl, hold]
      refine (stateAt_window hs hhi fun w hw hlt hle hkey => hl ?_).symm
      rw [← hkey]
      exact hcov w hw (Nat.lt_of_le_of_lt hlo hlt) hle
  · rw [hkeep k fun hl => hk (.inr hl)]
    exact h.elsewhere k fun hkn => hk (.inl hkn)

end

/-- Such a replica holds nothing that the truth lacks. -/
theorem Agrees.sound {truth : K → Option V} {known : K → Prop} {replica : K → Option V}
    (h : Agrees truth known replica) {k : K} {v : V} (hk : replica k = some v) :
    truth k = some v := by
  by_cases hkn : known k
  · rw [← h.at_known k hkn]
    exact hk
  · rw [h.elsewhere k hkn] at hk
    cases hk

/-! ## Contiguous windows -/

/-- The windows `(lo b, hi b]` are not empty and each begins where the one before it ends. -/
structure Contiguous {B : Type*} (lo hi : B → Nat) (bs : List B) : Prop where
  nonempty : ∀ b ∈ bs, lo b < hi b
  chain : bs.IsChain fun a b => lo b = hi a

theorem Contiguous.tail {B : Type*} {lo hi : B → Nat} {b : B} {bs : List B}
    (h : Contiguous lo hi (b :: bs)) : Contiguous lo hi bs :=
  ⟨fun b' hb' => h.nonempty b' (List.mem_cons_of_mem b hb'), h.chain.tail⟩

/-- All windows after the first begin at its end or later. -/
theorem Contiguous.after {B : Type*} {lo hi : B → Nat} {b : B} {bs : List B}
    (h : Contiguous lo hi (b :: bs)) : ∀ c ∈ bs, hi b ≤ lo c := by
  induction bs generalizing b with
  | nil => intro c hc; cases hc
  | cons d bs ih =>
    have hd : lo d = hi b := (List.isChain_cons_cons.1 h.chain).1
    intro c hc
    rcases List.mem_cons.1 hc with rfl | hc
    · exact Nat.le_of_eq hd.symm
    · have hle := ih h.tail c hc
      have hlt := h.tail.nonempty d List.mem_cons_self
      omega

theorem contiguous_cases {B : Type*} {lo hi : B → Nat} {bs : List B} (h : Contiguous lo hi bs)
    {b c : B} (hb : b ∈ bs) (hc : c ∈ bs) : b = c ∨ hi b ≤ lo c ∨ hi c ≤ lo b := by
  induction bs with
  | nil => cases hb
  | cons d bs ih =>
    rcases List.mem_cons.1 hb with rfl | hb'
    · rcases List.mem_cons.1 hc with rfl | hc'
      · exact .inl rfl
      · exact .inr (.inl (h.after c hc'))
    · rcases List.mem_cons.1 hc with rfl | hc'
      · exact .inr (.inr (h.after b hb'))
      · exact ih h.tail hb' hc'

end Timeline
