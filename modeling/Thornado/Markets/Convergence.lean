import Mathlib.Data.Fin.VecNotation
import Thornado.Lib.KeyedFold
import Thornado.Lib.Replica
import Thornado.Markets.Feed

/-!
# Clients of the markets feed

What a client shows when it replaces its rows by a snapshot's and changes them by a delta's, in
the order of the feed. A client subscribes before it takes its snapshot, so the first messages it
gets may be older than the snapshot; so may those after the snapshot that follows a lag.

* `diff_carries`: a delta takes every client of the old rows to the new ones.
* `replica_converges`: a client that starts from any of the service's states, and gets messages
  older than that state again, ends with the service's rows, up to `PartialEq` of floats.
-/

namespace Markets

open Rust Std Transition

variable {F : Type}

/-! ## Equality of rows -/

/-- `PartialEq` of optional values. -/
def Same {V : Type} [BEq V] (a b : Option V) : Prop := (a == b) = true

theorem Same.equivalence {V : Type} [BEq V] [EquivBEq V] :
    Equivalence (Same (V := V)) where
  refl a := BEq.rfl
  symm {a b} h := by
    unfold Same at *
    cases a with
    | none => cases b with
      | none => rfl
      | some b => cases h
    | some a => cases b with
      | none => cases h
      | some b => exact BEq.symm (α := V) h
  trans {a b c} hab hbc := by
    unfold Same at *
    cases b with
    | none => cases a with
      | none => exact hbc
      | some a => cases hab
    | some b => cases a with
      | none => cases hab
      | some a => cases c with
        | none => cases hbc
        | some c => exact BEq.trans (α := V) hab hbc

/-- The fields of a row that `PartialEq` compares exactly. -/
def MarketRow.exact (r : MarketRow F) :
    String × String × UInt32 × String × String × String × Nat × Bool :=
  (r.symbol, r.tickerId, r.productId, r.marketType, r.base, r.quote, r.updatedAt, r.stale)

/-- The fields of a row that hold floats. -/
def MarketRow.floats (r : MarketRow F) : Fin 9 → Option F :=
  ![r.price, r.change24h, r.volume24h, r.annFunding, r.fundingRate, r.markPrice, r.indexPrice,
    r.openInterest, r.openInterestUsd]

section
variable [BEq F]

theorem MarketRow.beq_iff (a b : MarketRow F) :
    (a == b) = true ↔ a.exact = b.exact ∧ ∀ i, Same (a.floats i) (b.floats i) := by
  obtain ⟨⟩ := a
  obtain ⟨⟩ := b
  rw [show (BEq.beq (α := MarketRow F)) = instBEqMarketRow.beq from rfl]
  simp only [instBEqMarketRow.beq, Bool.and_eq_true, beq_iff_eq, MarketRow.exact,
    MarketRow.floats, Same, Prod.mk.injEq, Fin.forall_fin_succ]
  -- the nine entries of the vectors
  simp only [Matrix.cons_val_zero, Matrix.cons_val_succ, Matrix.cons_val_fin_one,
    IsEmpty.forall_iff, and_true]
  tauto

instance [EquivBEq F] : EquivBEq (MarketRow F) where
  rfl {a} := (MarketRow.beq_iff a a).2 ⟨rfl, fun _ => Same.equivalence.refl _⟩
  symm {a b} h := by
    obtain ⟨he, hf⟩ := (MarketRow.beq_iff a b).1 h
    exact (MarketRow.beq_iff b a).2 ⟨he.symm, fun i => Same.equivalence.symm (hf i)⟩
  trans {a b c} hab hbc := by
    obtain ⟨he, hf⟩ := (MarketRow.beq_iff a b).1 hab
    obtain ⟨he', hf'⟩ := (MarketRow.beq_iff b c).1 hbc
    exact (MarketRow.beq_iff a c).2
      ⟨he.trans he', fun i => Same.equivalence.trans (hf i) (hf' i)⟩

end

/-! ## The client -/

/-- Replace or insert every row by its symbol. -/
def upsertRows (client : Rows F) (rows : List (MarketRow F)) : Rows F :=
  rows.foldl (fun client row => client.insert row.symbol row) client

def dropRows (client : Rows F) (symbols : List String) : Rows F :=
  symbols.foldl (fun client symbol => client.erase symbol) client

/-- A client's rows after a message. -/
def clientApply (client : Rows F) : ServerMessage F → Rows F
  | .snapshot _ _ markets => upsertRows ∅ markets
  | .delta _ _ updated removed => upsertRows (dropRows client removed) updated
  | .status _ _ _ => client

def clientRead (client : Rows F) (symbol : String) : Option (MarketRow F) := client[symbol]?

theorem insert_local : KeyedFold.Local clientRead MarketRow.symbol
    (fun (client : Rows F) (row : MarketRow F) => client.insert row.symbol row) := by
  intro client row symbol hne
  unfold clientRead
  rw [ExtTreeMap.getElem?_insert, if_neg fun hc => hne (Std.compare_eq_iff_eq.1 hc)]

theorem erase_local : KeyedFold.Local clientRead id
    (fun (client : Rows F) (symbol : String) => client.erase symbol) := by
  intro client symbol' symbol hne
  rw [id_eq] at hne
  unfold clientRead
  rw [ExtTreeMap.getElem?_erase, if_neg fun hc => hne (Std.compare_eq_iff_eq.1 hc)]

theorem upsertRows_other {rows : List (MarketRow F)} {client : Rows F} {symbol : String}
    (h : ∀ row ∈ rows, row.symbol ≠ symbol) :
    (upsertRows client rows)[symbol]? = client[symbol]? :=
  insert_local.foldl_other rows client h

theorem upsertRows_self {rows : List (MarketRow F)} {client : Rows F} {row : MarketRow F}
    (hmem : row ∈ rows) (huniq : ∀ r ∈ rows, r.symbol = row.symbol → r = row) :
    (upsertRows client rows)[row.symbol]? = some row := by
  refine insert_local.foldl_listed rows client ⟨row, hmem, rfl⟩ fun r hr hsym c => ?_
  rw [huniq r hr hsym]
  unfold clientRead
  rw [ExtTreeMap.getElem?_insert, if_pos (Std.compare_eq_iff_eq.2 rfl)]

theorem dropRows_get {symbols : List String} {client : Rows F} {symbol : String} :
    (dropRows client symbols)[symbol]? = if symbol ∈ symbols then none else client[symbol]? := by
  split
  · rename_i hmem
    refine erase_local.foldl_listed symbols client ⟨symbol, hmem, rfl⟩ fun s _ hs c => ?_
    rw [id_eq] at hs
    unfold clientRead
    rw [ExtTreeMap.getElem?_erase, if_pos (Std.compare_eq_iff_eq.2 hs)]
  · rename_i hmem
    exact erase_local.foldl_other symbols client fun s hs heq => hmem (heq ▸ hs)

/-! ## What the messages carry -/

/-- A client that takes a snapshot of the rows has the rows. -/
theorem upsertRows_marketsOf {rows : Rows F} (h : Keyed rows) (symbol : String) :
    (upsertRows ∅ (marketsOf rows))[symbol]? = rows[symbol]? := by
  cases hget : rows[symbol]? with
  | none =>
    rw [upsertRows_other fun row hrow hsym => ?_]
    · rfl
    · rw [h.mem_marketsOf, hsym, hget] at hrow
      cases hrow
  | some row =>
    have hsym := h symbol row hget
    rw [← hsym] at hget ⊢
    refine upsertRows_self (h.mem_marketsOf.2 hget) fun r hr hrs => ?_
    rw [h.mem_marketsOf, hrs, hget] at hr
    exact (Option.some.inj hr).symm

section
variable [F64 F]

theorem mem_diff_removed {old new : Rows F} {symbol : String} :
    symbol ∈ (diffMarketRows old new).2 ↔ symbol ∈ old ∧ symbol ∉ new := by
  unfold diffMarketRows
  simp only [List.mem_filter, ExtTreeMap.mem_keys, Bool.not_eq_true', ← Bool.not_eq_true,
    ExtTreeMap.contains_iff_mem]

theorem mem_diff_updated {old new : Rows F} (hnew : Keyed new) {row : MarketRow F} :
    row ∈ (diffMarketRows old new).1 ↔
      new[row.symbol]? = some row ∧
        ∀ prev, old[row.symbol]? = some prev → (prev == row) = false := by
  unfold diffMarketRows
  simp only [List.mem_filterMap]
  constructor
  · rintro ⟨⟨key, next⟩, hmem, hsel⟩
    have hget := ExtTreeMap.mem_toList_iff_getElem?_eq_some.1 hmem
    have hkey := hnew key next hget
    cases hold : old[key]? with
    | none =>
      rw [hold] at hsel
      cases hsel
      rw [hkey, hold]
      exact ⟨hget, fun prev h => nomatch h⟩
    | some prev =>
      rw [hold] at hsel
      simp only at hsel
      split at hsel
      · cases hsel
      · rename_i hne
        cases hsel
        rw [hkey, hold]
        refine ⟨hget, fun p hp => ?_⟩
        cases hp
        exact Bool.eq_false_iff.2 hne
  · rintro ⟨hget, hprev⟩
    refine ⟨(row.symbol, row), ExtTreeMap.mem_toList_iff_getElem?_eq_some.2 hget, ?_⟩
    cases hold : old[row.symbol]? with
    | none => rfl
    | some prev =>
      simp only [hprev prev hold]
      rfl

variable [EquivBEq F]

/-- **A delta is enough**: it carries every client of the old rows to the new ones. -/
theorem diff_carries {old new : Rows F} (hnew : Keyed new) (seq now : Nat) :
    Replica.Carries Same clientApply clientRead
      (.delta seq now (diffMarketRows old new).1 (diffMarketRows old new).2)
      (clientRead old) (clientRead new) := by
  intro symbol
  have hupd : ∀ {row}, row ∈ (diffMarketRows old new).1 → row.symbol = symbol →
      new[symbol]? = some row := by
    intro row hrow hsym
    rw [← hsym]
    exact ((mem_diff_updated hnew).1 hrow).1
  unfold Replica.Sets Replica.Leaves
  simp only [clientApply, clientRead]
  cases hn : new[symbol]? with
  | none =>
    have hother : ∀ row ∈ (diffMarketRows old new).1, row.symbol ≠ symbol := by
      intro row hrow hsym
      have := hupd hrow hsym
      rw [hn] at this
      cases this
    simp only [upsertRows_other hother, dropRows_get, mem_diff_removed]
    have hnot : symbol ∉ new := by
      rw [ExtTreeMap.mem_iff_isSome_getElem?, hn]
      exact Bool.false_ne_true
    by_cases hmem : symbol ∈ old
    · refine .inl fun c => ?_
      rw [if_pos ⟨hmem, hnot⟩]
      exact Same.equivalence.refl none
    · refine .inr ⟨fun c => if_neg fun h => hmem h.1, ?_⟩
      rw [ExtTreeMap.getElem?_eq_none hmem]
      exact Same.equivalence.refl none
  | some row =>
    have hsym := hnew symbol row hn
    have hdrop : ¬ (symbol ∈ old ∧ symbol ∉ new) := fun h =>
      h.2 (ExtTreeMap.mem_iff_isSome_getElem?.2 (by rw [hn]; rfl))
    by_cases hsame : ∃ prev, old[symbol]? = some prev ∧ (prev == row) = true
    · -- an unchanged row is not in the delta
      obtain ⟨prev, hprev, heq⟩ := hsame
      have hother : ∀ r ∈ (diffMarketRows old new).1, r.symbol ≠ symbol := by
        intro r hr hrs
        have hrow := hupd hr hrs
        rw [hn] at hrow
        cases hrow
        have hne := ((mem_diff_updated hnew).1 hr).2 prev (by rw [hrs]; exact hprev)
        rw [heq] at hne
        cases hne
      simp only [upsertRows_other hother, dropRows_get, mem_diff_removed, if_neg hdrop]
      refine .inr ⟨fun c => trivial, ?_⟩
      rw [hprev]
      exact heq
    · refine .inl fun c => ?_
      have hin : row ∈ (diffMarketRows old new).1 := by
        refine (mem_diff_updated hnew).2 ⟨by rw [hsym]; exact hn, fun prev hprev => ?_⟩
        rw [hsym] at hprev
        exact Bool.eq_false_iff.2 fun h => hsame ⟨prev, hprev, h⟩
      have huniq : ∀ r ∈ (diffMarketRows old new).1, r.symbol = row.symbol → r = row := by
        intro r hr hrs
        have hrow := hupd hr (hrs.trans hsym)
        rw [hn] at hrow
        exact (Option.some.inj hrow).symm
      rw [← hsym, upsertRows_self hin huniq]
      exact Same.equivalence.refl (some row)

/-- A snapshot carries any client to its rows. -/
theorem snapshot_carries {new : Rows F} (hnew : Keyed new) (seq now : Nat)
    (old : String → Option (MarketRow F)) :
    Replica.Carries Same clientApply clientRead (.snapshot seq now (marketsOf new)) old
      (clientRead new) := by
  refine fun symbol => .inl fun c => ?_
  simp only [clientApply, clientRead, upsertRows_marketsOf hnew]
  exact Same.equivalence.refl _

theorem replacementMessage_carries {old new : Rows F} (hnew : Keyed new) (seq now : Nat) :
    Replica.Carries Same clientApply clientRead
      (replacementMessage seq now new (diffMarketRows old new).1 (diffMarketRows old new).2)
      (clientRead old) (clientRead new) := by
  unfold replacementMessage
  split
  · exact snapshot_carries hnew seq now _
  · exact diff_carries hnew seq now

end

/-! ## The history of the rows -/

/-- The rows after `i` replacements. -/
def Sys.rowsAt (s : Sys F) (i : Nat) : Rows F := (∅ :: s.published.map Publication.rows).getD i ∅

/-- The messages of the replacements, in their order. -/
def Sys.messages (s : Sys F) : List (ServerMessage F) := s.published.map Publication.message

theorem Sys.rowsAt_append {s t : Sys F} {pub : Publication F}
    (ht : t.published = s.published ++ [pub]) {i : Nat} (hi : i ≤ s.published.length) :
    t.rowsAt i = s.rowsAt i := by
  unfold Sys.rowsAt
  rw [ht, List.map_append, ← List.cons_append, List.getD_eq_getElem?_getD,
    List.getElem?_append_left, ← List.getD_eq_getElem?_getD]
  rw [List.length_cons, List.length_map]
  omega

theorem Sys.rowsAt_last {s t : Sys F} {pub : Publication F}
    (ht : t.published = s.published ++ [pub]) : t.rowsAt (s.published.length + 1) = pub.rows := by
  unfold Sys.rowsAt
  rw [ht, List.getD_cons_succ, List.map_append, List.getD_eq_getElem?_getD,
    List.getElem?_append_right (by rw [List.length_map]), List.length_map, Nat.sub_self]
  rfl

section
variable [F64 F]

/-- What every step keeps: the rows are the last published ones, and each message carries the
clients from the rows before it to the rows after it. -/
structure History (s : Sys F) : Prop where
  current : s.state.markets = s.rowsAt s.published.length
  keyed : ∀ i, i ≤ s.published.length → Keyed (s.rowsAt i)
  carries : ∀ i pub, s.published[i]? = some pub →
    Replica.Carries Same clientApply clientRead pub.message (clientRead (s.rowsAt i))
      (clientRead (s.rowsAt (i + 1)))

namespace History

variable {s s' : Sys F}

theorem start : History ({} : Sys F) where
  current := rfl
  keyed i hi := by
    obtain rfl : i = 0 := Nat.le_zero.1 hi
    exact Keyed.empty
  carries i pub h := by simp at h

theorem frame (h : History s) (hm : s'.state.markets = s.state.markets)
    (hp : s'.published = s.published) : History s' := by
  have hr : ∀ i, s'.rowsAt i = s.rowsAt i := fun i => by
    unfold Sys.rowsAt
    rw [hp]
  refine ⟨?_, fun i hi => ?_, fun i pub hpub => ?_⟩
  · rw [hm, hp, hr]
    exact h.current
  · rw [hr]
    exact h.keyed i (by rw [← hp]; exact hi)
  · rw [hr, hr]
    exact h.carries i pub (by rw [← hp]; exact hpub)

variable [EquivBEq F]

theorem replace (h : History s) {config : Config F} {now : Nat} {state : ServiceState F}
    {message : ServerMessage F} (hrep : Replaces config now s.state state message)
    (hm : s'.state = state) (hp : s'.published = s.published ++ [⟨message, state.markets⟩]) :
    History s' := by
  have hnew : Keyed state.markets := by
    rw [hrep.markets]
    exact buildMarketRows_keyed s.state now config.staleAfterMs config.fundingIntervalHours
  have hlast : s'.rowsAt (s.published.length + 1) = state.markets := Sys.rowsAt_last hp
  have hlen : s'.published.length = s.published.length + 1 := by
    rw [hp, List.length_append, List.length_singleton]
  refine ⟨?_, fun i hi => ?_, fun i pub hpub => ?_⟩
  · rw [hm, hlen, hlast]
  · rcases Nat.lt_or_ge s.published.length i with hlt | hle
    · obtain rfl : i = s.published.length + 1 := by omega
      rw [hlast]
      exact hnew
    · rw [Sys.rowsAt_append hp hle]
      exact h.keyed i hle
  · rw [hp] at hpub
    rcases Concat.getElem?_cases hpub with ⟨hold, hlt⟩ | ⟨rfl, rfl⟩
    · rw [Sys.rowsAt_append hp (Nat.le_of_lt hlt), Sys.rowsAt_append hp hlt]
      exact h.carries i pub hold
    · rw [hlast, Sys.rowsAt_append hp (Nat.le_refl _), ← h.current]
      have hmsg : message = _ := hrep.message
      rw [hmsg]
      exact replacementMessage_carries hnew state.seq now

variable [UnicodeCase]

theorem step {config : Config F} {a : Act F} (h : History s)
    (hs : Markets.step config s a = some s') : History s' := by
  cases Step.of_step hs with
  | refreshed hp hseq hm => exact h.frame hm rfl
  | failed hp => exact h.frame rfl rfl
  | unchanged hp => exact h.frame rfl rfl
  | replaced hp hrep => exact h.replace hrep rfl rfl
  | sent hp => exact h.frame rfl rfl

theorem of_reach {config : Config F} (h : Reach (Markets.step config) anyStep (· = {}) s) :
    History s := by
  refine Reach.inv (P := History) ?_ (fun _ _ _ hp _ hs => step hp hs) h
  rintro s rfl
  exact start

end History

/-! ## Convergence -/

section
variable [EquivBEq F] [UnicodeCase]

/-- **A client converges**: in every run of the pollers, a client that takes a snapshot of the
rows after `j` replacements and then applies the messages from number `k ≤ j + 1` on, in order,
has the service's rows. -/
theorem replica_converges {config : Config F} {s : Sys F}
    (h : Reach (step config) anyStep (· = {}) s) {j k : Nat} (hk : k ≤ j + 1)
    (hj : j ≤ s.published.length) (client : Rows F) (seq sourceTs : Nat) (symbol : String) :
    Same ((s.messages.drop (k - 1)).foldl clientApply
        (clientApply client (.snapshot seq sourceTs (marketsOf (s.rowsAt j)))))[symbol]?
      s.state.markets[symbol]? := by
  have hist := History.of_reach h
  have hlen : s.messages.length = s.published.length := List.length_map ..
  have hms : ∀ i (hi : i < s.messages.length), Replica.Carries Same clientApply clientRead
      s.messages[i] (clientRead (s.rowsAt i)) (clientRead (s.rowsAt (i + 1))) := by
    intro i hi
    have hi' : i < s.published.length := by
      rw [← hlen]
      exact hi
    have hmsg : s.messages[i] = s.published[i].message := List.getElem_map ..
    rw [hmsg]
    exact hist.carries i _ (List.getElem?_eq_getElem hi')
  have hstart : Replica.Shows Same clientRead
      (clientApply client (.snapshot seq sourceTs (marketsOf (s.rowsAt j))))
      (clientRead (s.rowsAt j)) := by
    intro symbol
    unfold clientApply clientRead
    rw [upsertRows_marketsOf (hist.keyed j hj)]
    exact Same.equivalence.refl _
  have hend := Replica.replay_stale Same.equivalence hms (show k - 1 ≤ j by omega)
    (hlen ▸ hj) hstart symbol
  rw [hlen, ← hist.current] at hend
  exact hend

end

section
attribute [local instance] asciiCase

/-- The client's snapshot already has the first of the two messages it then applies. -/
theorem replica_converges_twoPollers :
    ∃ s, run (step twoPollersConfig) OldestFirst {} (twoPollers [.symbols, .tickers]) = some s ∧
      s.published.length = 2 ∧ ∀ symbol : String,
        Same ((s.messages.drop 0).foldl clientApply
            (clientApply ∅ (.snapshot 1 1 (marketsOf (s.rowsAt 1)))))[symbol]?
          s.state.markets[symbol]? := by
  have hrun : (run (step twoPollersConfig) OldestFirst {} (twoPollers [.symbols, .tickers])).map
      (fun s => s.published.length) = some 2 := by decide
  obtain ⟨s, hs, hlen⟩ := Option.map_eq_some_iff.1 hrun
  have hstart : Reach (step twoPollersConfig) OldestFirst (· = {}) {} := .start rfl
  have hreach := (hstart.of_run hs).mono (fun _ h => h) fun _ _ _ => trivial
  exact ⟨s, hs, hlen, replica_converges hreach (j := 1) (k := 1) (by omega) (by omega) ∅ 1 1⟩

end

end

end Markets
