import Mathlib.Algebra.Order.Ring.Int
import Mathlib.Data.List.AList
import Thornado.Lib.Tickets

/-!
# The store of login nonces

`nonceStore` of `gateway/main.go`. Times are nanoseconds; an operation reads the clock twice, once
to drop what has expired and once for its own nonce.

* `nonceStore_one_shot`: a nonce can be taken once, up to ten minutes after it was put.
-/

namespace Auth

open Tickets

def nonceTTL : Int := 10 * 60 * 10 ^ 9

structure NonceStore where
  /-- The nonces and when they expire. -/
  items : AList (fun _ : String => Int) := ∅

namespace NonceStore

/-- The loop over the map deletes the expired nonces one by one. -/
def cleanupLocked (s : NonceStore) (now : Int) : NonceStore where
  items := s.items.entries.foldl
    (fun items entry => if now > entry.2 then items.erase entry.1 else items) s.items

def put (s : NonceStore) (nonce : String) (swept now : Int) : NonceStore where
  items := (s.cleanupLocked swept).items.insert nonce (now + nonceTTL)

def take (s : NonceStore) (nonce : String) (swept now : Int) : Bool × NonceStore :=
  let s := s.cleanupLocked swept
  match s.items.lookup nonce with
  | none => (false, s)
  | some exp => if now > exp then (false, s) else (true, { items := s.items.erase nonce })

/-- When a nonce expires, if it is in the store. -/
def expiry (s : NonceStore) (nonce : String) : Option Int := s.items.lookup nonce

/-! ## What the operations do -/

theorem foldl_erase_lookup (now : Int) (nonce : String) :
    ∀ (entries : List (Sigma fun _ : String => Int)) (items : AList fun _ : String => Int),
      (entries.foldl (fun items entry => if now > entry.2 then items.erase entry.1 else items)
        items).lookup nonce =
        if ∃ entry ∈ entries, entry.1 = nonce ∧ now > entry.2 then none else items.lookup nonce
  | [], items => by simp
  | entry :: entries, items => by
    rw [List.foldl_cons, foldl_erase_lookup now nonce entries]
    by_cases hlater : ∃ e ∈ entries, e.1 = nonce ∧ now > e.2
    · obtain ⟨e, he, hexp⟩ := hlater
      rw [if_pos ⟨e, he, hexp⟩, if_pos ⟨e, List.mem_cons_of_mem _ he, hexp⟩]
    · rw [if_neg hlater]
      by_cases hfirst : now > entry.2
      · rw [if_pos hfirst]
        by_cases hname : entry.1 = nonce
        · rw [if_pos ⟨entry, List.mem_cons_self, hname, hfirst⟩, ← hname, AList.lookup_erase]
        · rw [AList.lookup_erase_ne (Ne.symm hname), if_neg]
          rintro ⟨e, he, hexp⟩
          rcases List.mem_cons.1 he with rfl | he
          · exact hname hexp.1
          · exact hlater ⟨e, he, hexp⟩
      · rw [if_neg hfirst, if_neg]
        rintro ⟨e, he, hexp⟩
        rcases List.mem_cons.1 he with rfl | he
        · exact hfirst hexp.2
        · exact hlater ⟨e, he, hexp⟩

/-- A cleanup keeps what has not expired. -/
theorem cleanupLocked_expiry (s : NonceStore) (now : Int) (nonce : String) :
    (s.cleanupLocked now).expiry nonce = (s.expiry nonce).filter (now ≤ ·) := by
  unfold cleanupLocked expiry
  rw [foldl_erase_lookup]
  split
  · rename_i hexpired
    obtain ⟨⟨name, exp⟩, hmem, rfl, hexp⟩ := hexpired
    have hlookup : s.items.lookup name = some exp := AList.mem_lookup_iff.2 hmem
    rw [hlookup, Option.filter_some_neg]
    simpa using hexp
  · rename_i hkept
    cases hlookup : s.items.lookup nonce with
    | none => rfl
    | some exp =>
      have hmem := AList.mem_lookup_iff.1 hlookup
      rw [Option.filter_some_pos]
      by_contra hexp
      exact hkept ⟨_, hmem, rfl, by simpa using hexp⟩

theorem put_expiry (s : NonceStore) (nonce other : String) (swept now : Int) :
    (s.put nonce swept now).expiry other =
      if other = nonce then some (now + nonceTTL) else (s.expiry other).filter (swept ≤ ·) := by
  rw [← cleanupLocked_expiry]
  unfold put expiry
  split
  · rename_i heq
    rw [heq, AList.lookup_insert]
  · rename_i hne
    rw [AList.lookup_insert_ne hne]

/-- **The two ends of a take**: the nonce is there and has not expired, and is dropped; or the
store is only cleaned up. -/
theorem take_cases (s : NonceStore) (nonce : String) {swept now : Int} (hle : swept ≤ now) :
    (∃ exp, s.expiry nonce = some exp ∧ now ≤ exp ∧
      s.take nonce swept now = (true, { items := (s.cleanupLocked swept).items.erase nonce })) ∨
    ((∀ exp ∈ s.expiry nonce, exp < now) ∧
      s.take nonce swept now = (false, s.cleanupLocked swept)) := by
  have hclean := cleanupLocked_expiry s swept nonce
  unfold take
  simp only
  cases hexp : (s.cleanupLocked swept).items.lookup nonce with
  | none =>
    refine .inr ⟨fun exp hmem => ?_, rfl⟩
    unfold expiry at hclean hmem
    rw [hexp, Option.mem_def.1 hmem] at hclean
    have hpast := Option.filter_eq_none_iff.1 hclean.symm exp rfl
    have hlt : exp < swept := by simpa using hpast
    omega
  | some exp =>
    unfold expiry at hclean
    rw [hexp] at hclean
    obtain ⟨hread, -⟩ := Option.filter_eq_some_iff.1 hclean.symm
    by_cases hpast : now > exp
    · refine .inr ⟨fun e hmem => ?_, if_pos hpast⟩
      unfold expiry at hmem
      rw [hread] at hmem
      cases hmem
      exact hpast
    · exact .inl ⟨exp, hread, by omega, if_neg hpast⟩

/-- A take succeeds if the nonce is there and has not expired. -/
theorem take_iff (s : NonceStore) (nonce : String) {swept now : Int} (hle : swept ≤ now) :
    (s.take nonce swept now).1 = true ↔ ∃ exp, s.expiry nonce = some exp ∧ now ≤ exp := by
  obtain ⟨exp, hexp, hnow, htake⟩ | ⟨hpast, htake⟩ := s.take_cases nonce hle
  · rw [htake]
    exact iff_of_true rfl ⟨exp, hexp, hnow⟩
  · rw [htake]
    refine iff_of_false Bool.false_ne_true fun ⟨exp, hexp, hnow⟩ => ?_
    have hlt := hpast exp hexp
    omega

theorem take_expiry_other (s : NonceStore) {nonce other : String} {swept now : Int}
    (hle : swept ≤ now) (hne : other ≠ nonce) :
    (s.take nonce swept now).2.expiry other = (s.expiry other).filter (swept ≤ ·) := by
  rw [← cleanupLocked_expiry]
  obtain ⟨_, _, _, htake⟩ | ⟨_, htake⟩ := s.take_cases nonce hle
  · rw [htake]
    exact AList.lookup_erase_ne hne
  · rw [htake]

/-- After a take the nonce is not there, unless it has expired. -/
theorem take_expiry_self (s : NonceStore) {nonce : String} {swept now : Int} (hle : swept ≤ now) :
    ∀ exp ∈ (s.take nonce swept now).2.expiry nonce, exp < now := by
  intro exp hmem
  obtain ⟨_, _, _, htake⟩ | ⟨hpast, htake⟩ := s.take_cases nonce hle
  · rw [htake] at hmem
    unfold expiry at hmem
    rw [AList.lookup_erase] at hmem
    cases hmem
  · rw [htake, cleanupLocked_expiry] at hmem
    exact hpast exp (Option.filter_eq_some_iff.1 hmem).1

end NonceStore

/-! ## Histories -/

theorem NonceStore.prunes (s : NonceStore) (now : Int) :
    Prunes now s.expiry (s.cleanupLocked now).expiry := by
  intro nonce
  rw [cleanupLocked_expiry]
  cases hexp : s.expiry nonce with
  | none => exact .inl rfl
  | some exp =>
    by_cases hpast : now ≤ exp
    · exact .inl (by simp [hpast])
    · refine .inr ⟨Option.filter_some_neg (by simpa using hpast), fun e he => ?_⟩
      cases he
      omega

section
variable {s : NonceStore} {log : List (Int × Op String)} {clock swept now : Int}

theorem NonceStore.put_tracks (htracks : Tracks (· + nonceTTL) clock log s.expiry)
    (hswept : clock ≤ swept) (hnow : swept ≤ now) (nonce : String) :
    Tracks (· + nonceTTL) now (log ++ [(now, .put nonce)]) (s.put nonce swept now).expiry := by
  have hclean := htracks.prune hswept (s.prunes swept)
  refine hclean.put hnow nonce fun other => ?_
  rw [NonceStore.cleanupLocked_expiry]
  exact NonceStore.put_expiry ..

theorem NonceStore.take_tracks (htracks : Tracks (· + nonceTTL) clock log s.expiry)
    (hswept : clock ≤ swept) (hnow : swept ≤ now) (nonce : String) :
    Tracks (· + nonceTTL) now (log ++ [(now, .take nonce)]) (s.take nonce swept now).2.expiry := by
  have hclean := htracks.prune hswept (s.prunes swept)
  refine hclean.take hnow nonce (fun other hne => ?_) ?_
  · rw [NonceStore.cleanupLocked_expiry]
    exact NonceStore.take_expiry_other _ hnow hne
  · exact NonceStore.take_expiry_self _ hnow

end

/-- An operation whose clock reads are one instant. -/
def NonceStore.apply (s : NonceStore) (e : Int × Op String) : NonceStore :=
  match e.2 with
  | .put nonce => s.put nonce e.1 e.1
  | .take nonce => (s.take nonce e.1 e.1).2

/-- The store after these operations. -/
def NonceStore.after (history : List (Int × Op String)) : NonceStore :=
  history.foldl NonceStore.apply {}

/-- The times of the operations do not go back. -/
def Forward (history : List (Int × Op String)) (now : Int) : Prop :=
  (history.map (·.1) ++ [now]).Pairwise (· ≤ ·)

instance (history : List (Int × Op String)) (now : Int) : Decidable (Forward history now) :=
  inferInstanceAs (Decidable ((history.map (·.1) ++ [now]).Pairwise (· ≤ ·)))

/-- The store tracks the history. -/
theorem NonceStore.after_tracks {history : List (Int × Op String)} {now : Int}
    (h : Forward history now) :
    Tracks (· + nonceTTL) now history (NonceStore.after history).expiry := by
  induction history using List.reverseRecOn generalizing now with
  | nil => exact Tracks.start
  | append_singleton history e ih =>
    obtain ⟨t, op⟩ := e
    unfold Forward at h
    rw [List.map_append, List.pairwise_append] at h
    obtain ⟨hforward, -, hlast⟩ := h
    have hle : t ≤ now := hlast t (by simp) now (by simp)
    have htracks := ih hforward
    refine Tracks.mono ?_ hle
    unfold NonceStore.after
    rw [List.foldl_append]
    cases op with
    | put nonce => exact NonceStore.put_tracks htracks (Int.le_refl t) (Int.le_refl t) nonce
    | take nonce => exact NonceStore.take_tracks htracks (Int.le_refl t) (Int.le_refl t) nonce

/-- **One-shot, expiring nonces.** A take succeeds if and only if its nonce was put, was not taken
since it was last put, and was last put at most ten minutes before; the operations on other nonces
do not change that; and after a put nothing in the store has expired. -/
theorem nonceStore_one_shot {history : List (Int × Op String)} {now : Int}
    (h : Forward history now) (nonce : String) :
    (((NonceStore.after history).take nonce now now).1 = true ↔
      ∃ put, Live history nonce put ∧ now ≤ put + nonceTTL) ∧
    ((NonceStore.after history).take nonce now now).1 =
      ((NonceStore.after (history.filter (·.2.ticket = nonce))).take nonce now now).1 ∧
    ∀ other exp, ((NonceStore.after history).put nonce now now).expiry other = some exp →
      ¬ now > exp := by
  have hanswer : ∀ {history : List (Int × Op String)}, Forward history now →
      (((NonceStore.after history).take nonce now now).1 = true ↔
        ∃ put, Live history nonce put ∧ now ≤ put + nonceTTL) := by
    intro history h
    rw [NonceStore.take_iff _ _ (Int.le_refl now)]
    exact (NonceStore.after_tracks h).answer (Int.le_refl now) nonce
  have hfilter : Forward (history.filter (·.2.ticket = nonce)) now := by
    refine List.Pairwise.sublist ?_ h
    exact ((List.filter_sublist).map _).append (List.Sublist.refl _)
  refine ⟨hanswer h, ?_, fun other exp hexp => ?_⟩
  · rw [Bool.eq_iff_iff, hanswer h, hanswer hfilter]
    simp only [live_filter]
  · rw [NonceStore.put_expiry] at hexp
    split at hexp
    · cases hexp
      unfold nonceTTL
      omega
    · have hkept := (Option.filter_eq_some_iff.1 hexp).2
      simpa using hkept

/-- A nonce that is taken twice, at the last moment it can be. -/
def takenTwice : List (Int × Op String) :=
  [(0, .put "k3Vw9"), (5, .put "n8Qz1"), (nonceTTL, .take "k3Vw9")]

theorem nonceStore_one_shot_takenTwice :
    ((NonceStore.after (takenTwice.take 2)).take "k3Vw9" nonceTTL nonceTTL).1 = true ∧
    ((NonceStore.after takenTwice).take "k3Vw9" nonceTTL nonceTTL).1 = false := by
  refine ⟨(nonceStore_one_shot (by decide) _).1.2 ⟨0, ?_, by decide⟩, ?_⟩
  · exact ⟨[], [(5, .put "n8Qz1")], rfl, by decide⟩
  · rw [Bool.eq_false_iff]
    intro htaken
    obtain ⟨put, hlive, -⟩ := (nonceStore_one_shot (by decide) _).1.1 htaken
    exact not_live_append_take (h := takenTwice.take 2) hlive

end Auth
