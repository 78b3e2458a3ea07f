import Thornado.Markets.Convergence
import Thornado.Markets.Sources

/-!
# The order of the maps

The rows are built by passes over hash maps, whose order the code does not control. Entries of
different products that are filed under one symbol write one row, and the last one, or the first
one with a value, decides.

* `rows_order_iff`: the rows do not depend on the orders if and only if no symbol is ambiguous.
-/

namespace Markets

open Rust Std Transition

variable {F : Type}

/-! ## Reordering -/

/-- The same source maps, which enumerate in other orders. -/
structure Reordered (state state' : ServiceState F) : Prop where
  symbols : state'.symbols.entries.Perm state.symbols.entries
  tickers : state'.tickers.entries.Perm state.tickers.entries
  contracts : state'.contracts.entries.Perm state.contracts.entries

theorem values_perm {K V : Type} {m m' : AList fun _ : K => V} (h : m'.entries.Perm m.entries) :
    (values m').Perm (values m) := h.map _

/-- Every value of a map is the last one in some order of it, also among those that satisfy `q`. -/
theorem exists_last {K V : Type} {m : AList fun _ : K => V} {q : V → Bool} {v : V}
    (hv : v ∈ (values m).filter q) : ∃ m' : AList fun _ : K => V, m'.entries.Perm m.entries ∧
      ∃ vs, (values m').filter q = vs ++ [v] := by
  obtain ⟨hmem, hq⟩ := List.mem_filter.1 hv
  obtain ⟨e, he, rfl⟩ := List.mem_map.1 hmem
  obtain ⟨before, after, heq⟩ := List.append_of_mem he
  have hperm : (before ++ after ++ [e]).Perm m.entries := by
    rw [heq, List.append_assoc]
    exact List.perm_append_comm.append_left before
  refine ⟨⟨_, (List.perm_nodupKeys hperm).2 m.nodupKeys⟩, hperm,
    ((before ++ after).map (·.2)).filter q, ?_⟩
  unfold values
  rw [List.map_append, List.filter_append]
  exact congrArg _ (List.filter_cons_of_pos hq)

theorem exists_first {K V : Type} {m : AList fun _ : K => V} {q : V → Bool} {v : V}
    (hv : v ∈ (values m).filter q) : ∃ m' : AList fun _ : K => V, m'.entries.Perm m.entries ∧
      ∃ vs, (values m').filter q = v :: vs := by
  obtain ⟨hmem, hq⟩ := List.mem_filter.1 hv
  obtain ⟨e, he, rfl⟩ := List.mem_map.1 hmem
  obtain ⟨before, after, heq⟩ := List.append_of_mem he
  have hperm : (e :: (before ++ after)).Perm m.entries := by
    rw [heq]
    exact List.perm_middle.symm
  refine ⟨⟨_, (List.perm_nodupKeys hperm).2 m.nodupKeys⟩, hperm,
    ((before ++ after).map (·.2)).filter q, ?_⟩
  unfold values
  exact List.filter_cons_of_pos hq

namespace Reordered

variable {state state' : ServiceState F}

theorem refl (state : ServiceState F) : Reordered state state :=
  ⟨.refl _, .refl _, .refl _⟩

theorem symbolKey (h : Reordered state state') (p : UInt32) (tickerId : String) :
    symbolKey state' p tickerId = symbolKey state p tickerId := by
  unfold Markets.symbolKey
  rw [AList.perm_lookup h.symbols]

theorem symbolsAt (h : Reordered state state') (key : String) :
    (symbolsAt state' key).Perm (symbolsAt state key) := (values_perm h.symbols).filter _

theorem tickersAt (h : Reordered state state') (key : String) :
    (tickersAt state' key).Perm (tickersAt state key) := by
  unfold Markets.tickersAt
  simp only [h.symbolKey]
  exact (values_perm h.tickers).filter _

theorem contractsAt (h : Reordered state state') (key : String) :
    (contractsAt state' key).Perm (contractsAt state key) := by
  unfold Markets.contractsAt
  simp only [h.symbolKey]
  exact (values_perm h.contracts).filter _

theorem listed (h : Reordered state state') (key : String) :
    Listed state' key ↔ Listed state key := by
  have hne : ∀ {A : Type} {l l' : List A}, l.Perm l' → (l ≠ [] ↔ l' ≠ []) := fun hl =>
    not_congr ⟨fun hnil => (hnil ▸ hl.symm).eq_nil, fun hnil => (hnil ▸ hl).eq_nil⟩
  exact or_congr (hne (h.symbolsAt key))
    (or_congr (hne (h.tickersAt key)) (hne (h.contractsAt key)))

end Reordered

/-! ## Fields that do not depend on an order -/

theorem lastOf_perm {X : Type} (x : X) {xs ys : List X} (h : xs.Perm ys)
    (hall : ∀ a ∈ ys, ∀ b ∈ ys, a = b) : lastOf x xs = lastOf x ys := by
  by_cases hys : ys = []
  · subst hys
    rw [h.eq_nil]
  · have hxs : xs ≠ [] := fun hxs => hys (h.symm.trans (hxs ▸ .refl _)).eq_nil
    exact hall _ (h.mem_iff.1 (lastOf_mem x hxs)) _ (lastOf_mem x hys)

/-- A field on which all entries agree. -/
theorem lastOf_map_perm {A X : Type} {f : A → X} (x : X) {as bs : List A} (h : as.Perm bs)
    (hall : ∀ a ∈ bs, ∀ b ∈ bs, f a = f b) : lastOf x (as.map f) = lastOf x (bs.map f) := by
  refine lastOf_perm x (h.map f) fun a ha b hb => ?_
  obtain ⟨a', ha', rfl⟩ := List.mem_map.1 ha
  obtain ⟨b', hb', rfl⟩ := List.mem_map.1 hb
  exact hall a' ha' b' hb'

/-- The default does not matter where there are elements. -/
theorem lastOf_congr {X : Type} {x y : X} {xs : List X} (h : xs = [] → x = y) :
    lastOf x xs = lastOf y xs := by
  rcases List.eq_nil_or_concat' xs with rfl | ⟨ys, z, rfl⟩
  · exact h rfl
  · rw [lastOf_append, lastOf_append]

theorem lastOf_append_congr {X : Type} {x y : X} {xs ys zs : List X}
    (h : zs = [] → lastOf x xs = lastOf y ys) : lastOf x (xs ++ zs) = lastOf y (ys ++ zs) := by
  rcases List.eq_nil_or_concat' zs with rfl | ⟨zs, z, rfl⟩
  · rw [List.append_nil, List.append_nil]
    exact h rfl
  · rw [← List.append_assoc, ← List.append_assoc, lastOf_append, lastOf_append]

theorem lastOf_map {A X : Type} (f : A → X) (a : A) (as : List A) :
    lastOf (f a) (as.map f) = f (lastOf a as) := by
  unfold lastOf
  rw [List.getLast?_map]
  cases as.getLast? <;> rfl

theorem lastOf_eq_empty {A : Type} {f : A → String} {as : List A} (h : ∀ a ∈ as, f a = "") :
    lastOf "" (as.map f) = "" := by
  rcases List.eq_nil_or_concat' as with rfl | ⟨as, a, rfl⟩
  · rfl
  · rw [List.map_append, List.map_singleton, lastOf_append]
    exact h a (by simp)

theorem firstNonempty_mem {names : List String} (h : firstNonempty names ≠ "") :
    firstNonempty names ∈ names := by
  induction names with
  | nil => exact absurd rfl h
  | cons name names ih =>
    rw [firstNonempty_cons] at h ⊢
    split at h
    · rename_i hname
      rw [if_pos hname]
      exact List.mem_cons_of_mem _ (ih h)
    · rename_i hname
      rw [if_neg hname]
      exact List.mem_cons_self

theorem firstNonempty_eq_empty {names : List String} :
    firstNonempty names = "" ↔ ∀ name ∈ names, name = "" := by
  induction names with
  | nil => simp
  | cons name names ih =>
    rw [firstNonempty_cons, List.forall_mem_cons]
    split
    · rename_i hname
      rw [ih]
      exact ⟨fun h => ⟨hname, h⟩, fun h => h.2⟩
    · rename_i hname
      exact ⟨fun h => absurd h hname, fun h => absurd h.1 hname⟩

theorem firstNonempty_perm {names names' : List String} (h : names.Perm names')
    (hall : ∀ a ∈ names', ∀ b ∈ names', a ≠ "" → b ≠ "" → a = b) :
    firstNonempty names = firstNonempty names' := by
  by_cases hempty : firstNonempty names' = ""
  · rw [hempty, firstNonempty_eq_empty]
    exact fun name hname => firstNonempty_eq_empty.1 hempty name (h.mem_iff.1 hname)
  · have hne : firstNonempty names ≠ "" := fun hnames => hempty <| firstNonempty_eq_empty.2
      fun name hname => firstNonempty_eq_empty.1 hnames name (h.mem_iff.2 hname)
    exact hall _ (h.mem_iff.1 (firstNonempty_mem hne)) _ (firstNonempty_mem hempty) hne hempty

/-- The first name that is not empty, of symbols that agree on it and of tickers that agree on it
where the symbols have none. -/
theorem firstNonempty_reordered {ms ms' : List SymbolMeta} {ts ts' : List (TickerMeta F)}
    (hms : ms'.Perm ms) (hts : ts'.Perm ts) {f : SymbolMeta → String} {g : TickerMeta F → String}
    (hf : ∀ m ∈ ms, ∀ m' ∈ ms, f m = f m')
    (hg : (∀ m ∈ ms, f m = "") → ∀ t ∈ ts, ∀ t' ∈ ts, g t ≠ "" → g t' ≠ "" → g t = g t')
    (rest : List String) :
    firstNonempty (lastOf "" (ms'.map f) :: (ts'.map g ++ rest)) =
      firstNonempty (lastOf "" (ms.map f) :: (ts.map g ++ rest)) := by
  rw [lastOf_map_perm "" hms hf, firstNonempty_cons, firstNonempty_cons]
  split
  · rename_i hlast
    have hempty : ∀ m ∈ ms, f m = "" := by
      intro m hm
      have hne : ms.map f ≠ [] := fun hnil => by
        rw [List.map_eq_nil_iff.1 hnil] at hm
        cases hm
      have hmem := lastOf_mem "" hne
      rw [hlast] at hmem
      obtain ⟨m', hm', heq⟩ := List.mem_map.1 hmem
      exact (hf m hm m' hm').trans heq
    rw [firstNonempty_append, firstNonempty_append, firstNonempty_perm (hts.map g)]
    intro a ha b hb hane hbne
    obtain ⟨t, ht, rfl⟩ := List.mem_map.1 ha
    obtain ⟨t', ht', rfl⟩ := List.mem_map.1 hb
    exact hg hempty t ht t' ht' hane hbne
  · rfl

/-! ## Ambiguous symbols -/

section
variable (state : ServiceState F) (key : String)

/-- The products whose entries decide whose row it is: those of the contracts filed under the
symbol; if there are none, of the tickers; if there are none either, of the symbols. -/
def owners : List UInt32 :=
  if contractsAt state key ≠ [] then (contractsAt state key).map (·.productId)
  else if tickersAt state key ≠ [] then (tickersAt state key).map (·.productId)
  else (symbolsAt state key).map (·.productId)

/-- The market type of a row that this symbol entry starts. -/
def filledType (m : SymbolMeta) : String :=
  ((contractsAt state key).map (·.marketType)).foldl fillType m.marketType

variable [F64 F]

/-- The entries of different products filed under the symbol agree on what the row takes from
them. -/
structure Unambiguous : Prop where
  owner : ∀ p ∈ owners state key, ∀ q ∈ owners state key, p = q
  marketType : ∀ m ∈ symbolsAt state key, ∀ m' ∈ symbolsAt state key,
    filledType state key m = filledType state key m'
  price : ∀ t ∈ tickersAt state key, ∀ t' ∈ tickersAt state key,
    finiteOption t.lastPrice = finiteOption t'.lastPrice
  change24h : ∀ t ∈ tickersAt state key, ∀ t' ∈ tickersAt state key,
    finiteOption t.change24h = finiteOption t'.change24h
  volume24h : ∀ t ∈ tickersAt state key, ∀ t' ∈ tickersAt state key,
    preferredVolume t.baseVolume t.quoteVolume = preferredVolume t'.baseVolume t'.quoteVolume
  base : (∀ m ∈ symbolsAt state key, m.base = "") →
    ∀ t ∈ tickersAt state key, ∀ t' ∈ tickersAt state key,
      t.base ≠ "" → t'.base ≠ "" → t.base = t'.base
  quote : (∀ m ∈ symbolsAt state key, m.quote = "") →
    ∀ t ∈ tickersAt state key, ∀ t' ∈ tickersAt state key,
      t.quote ≠ "" → t'.quote ≠ "" → t.quote = t'.quote

end

theorem eq_of_nodup_filter {V : Type} {l : List V} {f : V → String} (h : (l.map f).Nodup)
    {key : String} {a b : V} (ha : a ∈ l.filter fun v => f v = key)
    (hb : b ∈ l.filter fun v => f v = key) : a = b := by
  obtain ⟨hmem, hkey⟩ := List.mem_filter.1 ha
  obtain ⟨hmem', hkey'⟩ := List.mem_filter.1 hb
  exact List.inj_on_of_nodup_map h hmem hmem'
    ((of_decide_eq_true hkey).trans (of_decide_eq_true hkey').symm)

/-- Where no two entries of a source are filed under one symbol, and there are no contracts, no
symbol is ambiguous. -/
theorem Unambiguous.of_nodup [F64 F] {state : ServiceState F}
    (hsymbols : ((values state.symbols).map (·.symbol)).Nodup)
    (htickers : ((values state.tickers).map fun t =>
      symbolKey state t.productId t.tickerId).Nodup)
    (hcontracts : values state.contracts = []) (key : String) : Unambiguous state key := by
  have hs : ∀ m ∈ symbolsAt state key, ∀ m' ∈ symbolsAt state key, m = m' :=
    fun _ hm _ hm' => eq_of_nodup_filter hsymbols hm hm'
  have ht : ∀ t ∈ tickersAt state key, ∀ t' ∈ tickersAt state key, t = t' :=
    fun _ ht _ ht' => eq_of_nodup_filter htickers ht ht'
  have hc : contractsAt state key = [] := by simp [contractsAt, hcontracts]
  constructor
  · intro p hp q hq
    simp only [owners, hc, ne_eq, not_true_eq_false, if_false] at hp hq
    split at hp
    · rename_i hsome
      rw [if_pos hsome] at hq
      obtain ⟨t, htp, rfl⟩ := List.mem_map.1 hp
      obtain ⟨t', htq, rfl⟩ := List.mem_map.1 hq
      rw [ht t htp t' htq]
    · rename_i hnone
      rw [if_neg hnone] at hq
      obtain ⟨m, hmp, rfl⟩ := List.mem_map.1 hp
      obtain ⟨m', hmq, rfl⟩ := List.mem_map.1 hq
      rw [hs m hmp m' hmq]
  · intro m hm m' hm'
    rw [hs m hm m' hm']
  · intro t h t' h'
    rw [ht t h t' h']
  · intro t h t' h'
    rw [ht t h t' h']
  · intro t h t' h'
    rw [ht t h t' h']
  · intro _ t h t' h' _ _
    rw [ht t h t' h']
  · intro _ t h t' h' _ _
    rw [ht t h t' h']

/-- The entries filed under a symbol have different products. -/
theorem filed_nodup {V : Type} {m : AList fun _ : UInt32 => V} {productId : V → UInt32}
    (hkeyed : ∀ p v, m.lookup p = some v → productId v = p) (q : V → Bool) :
    (((values m).filter q).map productId).Nodup := by
  have hids : (values m).map productId = m.keys := by
    unfold values AList.keys List.keys
    rw [List.map_map]
    exact List.map_congr_left fun e he => hkeyed _ _ (AList.mem_lookup_iff.2 he)
  refine ((List.filter_sublist).map productId).nodup ?_
  rw [hids]
  exact m.keys_nodup

/-- One product has one entry. -/
theorem eq_of_one_id {V : Type} {productId : V → UInt32} {vs vs' : List V} (h : vs'.Perm vs)
    (hnodup : (vs.map productId).Nodup)
    (hone : ∀ p ∈ vs.map productId, ∀ q ∈ vs.map productId, p = q) : vs' = vs := by
  match vs with
  | [] => exact h.eq_nil
  | [v] => exact List.perm_singleton.1 h
  | v :: w :: vs =>
    have heq : productId v = productId w := hone _ (by simp) _ (by simp)
    simp [heq] at hnodup

section
variable [UnicodeCase] [F64 F] {state state' : ServiceState F} {key : String}

/-- The entries that decide whose row it is come in one order. -/
theorem Unambiguous.deciders (hcollected : Collected state) (hreordered : Reordered state state')
    (h : Unambiguous state key) :
    contractsAt state' key = contractsAt state key ∧
      (contractsAt state key = [] → tickersAt state' key = tickersAt state key ∧
        (tickersAt state key = [] → symbolsAt state' key = symbolsAt state key)) := by
  have hkeyed := hcollected.wellKeyed
  have howner := h.owner
  unfold owners at howner
  by_cases hc : contractsAt state key = []
  · refine ⟨by rw [hc]; exact (hc ▸ hreordered.contractsAt key).eq_nil, fun _ => ?_⟩
    rw [if_neg (not_not.2 hc)] at howner
    by_cases ht : tickersAt state key = []
    · refine ⟨by rw [ht]; exact (ht ▸ hreordered.tickersAt key).eq_nil, fun _ => ?_⟩
      rw [if_neg (not_not.2 ht)] at howner
      exact eq_of_one_id (hreordered.symbolsAt key)
        (filed_nodup (fun p m hm => (hkeyed.symbol p m hm).1) _) howner
    · rw [if_pos ht] at howner
      refine ⟨eq_of_one_id (hreordered.tickersAt key) (filed_nodup hkeyed.ticker _) howner, ?_⟩
      exact fun hnil => absurd hnil ht
  · rw [if_pos hc] at howner
    exact ⟨eq_of_one_id (hreordered.contractsAt key) (filed_nodup hkeyed.contract _) howner,
      fun hnil => absurd hnil hc⟩

/-- **An unambiguous symbol has one row**, whatever the orders are. -/
theorem Unambiguous.rowOf_eq (hcollected : Collected state) (hreordered : Reordered state state')
    (h : Unambiguous state key) (hours : F) :
    rowOf hours key (symbolsAt state' key) (tickersAt state' key) (contractsAt state' key) =
      rowOf hours key (symbolsAt state key) (tickersAt state key) (contractsAt state key) := by
  have hms := hreordered.symbolsAt key
  have hts := hreordered.tickersAt key
  obtain ⟨hcontracts, hnocontract⟩ := h.deciders hcollected hreordered
  have hagree : ∀ m ∈ symbolsAt state key, ∀ m' ∈ symbolsAt state key, m.symbol = m'.symbol ∧
      m.base = m'.base ∧ m.quote = m'.quote ∧ m.updatedAt = m'.updatedAt :=
    fun m hm m' hm' => hcollected.symbols_agree hm hm'
  have hsymbol := lastOf_map_perm key hms fun m hm m' hm' => (hagree m hm m' hm').1
  have htime := lastOf_map_perm 0 hms fun m hm m' hm' => (hagree m hm m' hm').2.2.2
  rw [hcontracts]
  unfold rowOf
  rw [MarketRow.mk.injEq, hsymbol, htime]
  refine ⟨rfl, ?_, ?_, ?_, ?_, ?_, ?_, ?_, ?_, rfl, rfl, rfl, rfl, rfl, rfl, ?_, rfl⟩
  · refine lastOf_append_congr fun hc => ?_
    rw [(hnocontract (List.map_eq_nil_iff.1 hc)).1]
  · refine lastOf_append_congr fun hc => ?_
    obtain ⟨htickers, hnoticker⟩ := hnocontract (List.map_eq_nil_iff.1 hc)
    rw [htickers]
    refine lastOf_congr fun ht => ?_
    rw [hnoticker (List.map_eq_nil_iff.1 ht)]
  · let fill := fun marketType =>
      ((contractsAt state key).map (·.marketType)).foldl fillType marketType
    have htype := lastOf_map_perm (fill "unknown") hms h.marketType
    have hfill : ∀ ms : List SymbolMeta, fill (lastOf "unknown" (ms.map (·.marketType))) =
        lastOf (fill "unknown") (ms.map (filledType state key)) := fun ms => by
      rw [← lastOf_map fill, List.map_map]
      rfl
    exact (hfill _).trans (htype.trans (hfill _).symm)
  · exact firstNonempty_reordered hms hts (fun m hm m' hm' => (hagree m hm m' hm').2.1) h.base _
  · exact firstNonempty_reordered hms hts (fun m hm m' hm' => (hagree m hm m' hm').2.2.1) h.quote _
  · exact lastOf_map_perm none hts h.price
  · exact lastOf_map_perm none hts h.change24h
  · exact lastOf_map_perm none hts h.volume24h
  · refine ((hts.map (·.updatedAt)).append_right _).foldl_eq' (fun a _ b _ newest => ?_) _
    exact Nat.max_right_comm newest a b

end

/-! ## Rows that do not depend on an order -/

/-- The row of a symbol, as the entries filed under it make it. -/
def ServiceState.rowAt [F64 F] (state : ServiceState F) (hours : F) (key : String) : MarketRow F :=
  rowOf hours key (symbolsAt state key) (tickersAt state key) (contractsAt state key)

/-- The rows are the same in every order of the maps. -/
def OrderIndependent [F64 F] (state : ServiceState F) (now staleAfterMs : Nat) (hours : F) : Prop :=
  ∀ state', Reordered state state' →
    buildMarketRows state' now staleAfterMs hours = buildMarketRows state now staleAfterMs hours

section
variable [F64 F] {state state' : ServiceState F} {key : String} {now staleAfterMs : Nat} {hours : F}

/-- A field that the last pass does not touch. -/
theorem OrderIndependent.field {X : Type} (h : OrderIndependent state now staleAfterMs hours)
    (hreordered : Reordered state state') (hlisted : Listed state key) {f : MarketRow F → X}
    (hf : ∀ row, f (finishRow now staleAfterMs row) = f row) :
    f (state.rowAt hours key) = f (state'.rowAt hours key) := by
  have hget : (buildMarketRows state' now staleAfterMs hours)[key]? =
      (buildMarketRows state now staleAfterMs hours)[key]? := by rw [h state' hreordered]
  rw [buildMarketRows_get, buildMarketRows_get, if_pos hlisted,
    if_pos ((hreordered.listed key).2 hlisted), joinedRow_eq, joinedRow_eq] at hget
  rw [← hf, ← hf (state'.rowAt hours key)]
  exact congrArg f (Option.some.inj hget).symm

/-- The tickers filed under the symbol, with one of them last. -/
theorem exists_last_ticker (hours : F) {t : TickerMeta F} (ht : t ∈ tickersAt state key) :
    ∃ state' ts, Reordered state state' ∧ state'.rowAt hours key =
      rowOf hours key (symbolsAt state key) (ts ++ [t]) (contractsAt state key) := by
  obtain ⟨m', hperm, ts, hlast⟩ := exists_last ht
  refine ⟨{ state with tickers := m' }, ts,
    { Reordered.refl state with tickers := hperm }, ?_⟩
  rw [← hlast]
  rfl

theorem exists_first_ticker (hours : F) {t : TickerMeta F} (ht : t ∈ tickersAt state key) :
    ∃ state' ts, Reordered state state' ∧ state'.rowAt hours key =
      rowOf hours key (symbolsAt state key) (t :: ts) (contractsAt state key) := by
  obtain ⟨m', hperm, ts, hfirst⟩ := exists_first ht
  refine ⟨{ state with tickers := m' }, ts,
    { Reordered.refl state with tickers := hperm }, ?_⟩
  rw [← hfirst]
  rfl

theorem exists_last_contract (hours : F) {c : ContractMeta F} (hc : c ∈ contractsAt state key) :
    ∃ state' cs, Reordered state state' ∧ state'.rowAt hours key =
      rowOf hours key (symbolsAt state key) (tickersAt state key) (cs ++ [c]) := by
  obtain ⟨m', hperm, cs, hlast⟩ := exists_last hc
  refine ⟨{ state with contracts := m' }, cs,
    { Reordered.refl state with contracts := hperm }, ?_⟩
  rw [← hlast]
  rfl

theorem exists_last_symbol (hours : F) {m : SymbolMeta} (hm : m ∈ symbolsAt state key) :
    ∃ state' ms, Reordered state state' ∧ state'.rowAt hours key =
      rowOf hours key (ms ++ [m]) (tickersAt state key) (contractsAt state key) := by
  obtain ⟨m', hperm, ms, hlast⟩ := exists_last hm
  have hreordered : Reordered state { state with symbols := m' } :=
    { Reordered.refl state with symbols := hperm }
  refine ⟨_, ms, hreordered, ?_⟩
  have htickers : tickersAt { state with symbols := m' } key = tickersAt state key := by
    unfold tickersAt
    simp only [hreordered.symbolKey]
  have hcontracts : contractsAt { state with symbols := m' } key = contractsAt state key := by
    unfold contractsAt
    simp only [hreordered.symbolKey]
  unfold ServiceState.rowAt
  rw [htickers, hcontracts, ← hlast]
  rfl

/-- What a ticker would write last is what the row has. -/
theorem OrderIndependent.ticker (h : OrderIndependent state now staleAfterMs hours)
    {t : TickerMeta F} (ht : t ∈ tickersAt state key) :
    (state.rowAt hours key).price = finiteOption t.lastPrice ∧
      (state.rowAt hours key).change24h = finiteOption t.change24h ∧
      (state.rowAt hours key).volume24h = preferredVolume t.baseVolume t.quoteVolume ∧
      (contractsAt state key = [] → (state.rowAt hours key).productId = t.productId) := by
  obtain ⟨state', ts, hreordered, hrow⟩ := exists_last_ticker hours ht
  have hlisted : Listed state key := .inr (.inl (List.ne_nil_of_mem ht))
  refine ⟨?_, ?_, ?_, fun hc => ?_⟩
  · rw [h.field (f := MarketRow.price) hreordered hlisted fun _ => rfl, hrow]
    simp [rowOf]
  · rw [h.field (f := MarketRow.change24h) hreordered hlisted fun _ => rfl, hrow]
    simp [rowOf]
  · rw [h.field (f := MarketRow.volume24h) hreordered hlisted fun _ => rfl, hrow]
    simp [rowOf]
  · rw [h.field (f := MarketRow.productId) hreordered hlisted fun _ => rfl, hrow]
    simp [rowOf, hc]

theorem OrderIndependent.contract (h : OrderIndependent state now staleAfterMs hours)
    {c : ContractMeta F} (hc : c ∈ contractsAt state key) :
    (state.rowAt hours key).productId = c.productId := by
  obtain ⟨state', cs, hreordered, hrow⟩ := exists_last_contract hours hc
  have hlisted : Listed state key := .inr (.inr (List.ne_nil_of_mem hc))
  rw [h.field (f := MarketRow.productId) hreordered hlisted fun _ => rfl, hrow]
  simp only [rowOf, List.map_append, ← List.append_assoc]
  exact lastOf_append ..

theorem OrderIndependent.symbol (h : OrderIndependent state now staleAfterMs hours)
    {m : SymbolMeta} (hm : m ∈ symbolsAt state key) :
    (state.rowAt hours key).marketType = filledType state key m ∧
      (contractsAt state key = [] → tickersAt state key = [] →
        (state.rowAt hours key).productId = m.productId) := by
  obtain ⟨state', ms, hreordered, hrow⟩ := exists_last_symbol hours hm
  have hlisted : Listed state key := .inl (List.ne_nil_of_mem hm)
  refine ⟨?_, fun hc ht => ?_⟩
  · rw [h.field (f := MarketRow.marketType) hreordered hlisted fun _ => rfl, hrow]
    simp [rowOf, filledType]
  · rw [h.field (f := MarketRow.productId) hreordered hlisted fun _ => rfl, hrow]
    simp [rowOf, hc, ht]

/-- Where the symbols have no base, a ticker that comes first gives its own. -/
theorem OrderIndependent.base (h : OrderIndependent state now staleAfterMs hours)
    (hempty : ∀ m ∈ symbolsAt state key, m.base = "") {t : TickerMeta F}
    (ht : t ∈ tickersAt state key) (hne : t.base ≠ "") :
    (state.rowAt hours key).base = t.base := by
  obtain ⟨state', ts, hreordered, hrow⟩ := exists_first_ticker hours ht
  have hlisted : Listed state key := .inr (.inl (List.ne_nil_of_mem ht))
  rw [h.field (f := MarketRow.base) hreordered hlisted fun _ => rfl, hrow]
  simp only [rowOf, lastOf_eq_empty hempty, List.map_cons, List.cons_append, firstNonempty_cons,
    if_true, if_neg hne]

theorem OrderIndependent.quote (h : OrderIndependent state now staleAfterMs hours)
    (hempty : ∀ m ∈ symbolsAt state key, m.quote = "") {t : TickerMeta F}
    (ht : t ∈ tickersAt state key) (hne : t.quote ≠ "") :
    (state.rowAt hours key).quote = t.quote := by
  obtain ⟨state', ts, hreordered, hrow⟩ := exists_first_ticker hours ht
  have hlisted : Listed state key := .inr (.inl (List.ne_nil_of_mem ht))
  rw [h.field (f := MarketRow.quote) hreordered hlisted fun _ => rfl, hrow]
  simp only [rowOf, lastOf_eq_empty hempty, List.map_cons, List.cons_append, firstNonempty_cons,
    if_true, if_neg hne]

theorem OrderIndependent.owner (h : OrderIndependent state now staleAfterMs hours) :
    ∀ p ∈ owners state key, p = (state.rowAt hours key).productId := by
  intro p hp
  unfold owners at hp
  by_cases hc : contractsAt state key = []
  · rw [if_neg (not_not.2 hc)] at hp
    by_cases ht : tickersAt state key = []
    · rw [if_neg (not_not.2 ht)] at hp
      obtain ⟨m, hm, rfl⟩ := List.mem_map.1 hp
      exact ((h.symbol hm).2 hc ht).symm
    · rw [if_pos ht] at hp
      obtain ⟨t, htmem, rfl⟩ := List.mem_map.1 hp
      exact ((h.ticker htmem).2.2.2 hc).symm
  · rw [if_pos hc] at hp
    obtain ⟨c, hcmem, rfl⟩ := List.mem_map.1 hp
    exact (h.contract hcmem).symm

/-- Rows that do not depend on the orders have no ambiguous symbol. -/
theorem OrderIndependent.unambiguous (h : OrderIndependent state now staleAfterMs hours)
    (key : String) : Unambiguous state key where
  owner p hp q hq := (h.owner p hp).trans (h.owner q hq).symm
  marketType _ hm _ hm' := (h.symbol hm).1.symm.trans (h.symbol hm').1
  price _ ht _ ht' := (h.ticker ht).1.symm.trans (h.ticker ht').1
  change24h _ ht _ ht' := (h.ticker ht).2.1.symm.trans (h.ticker ht').2.1
  volume24h _ ht _ ht' := (h.ticker ht).2.2.1.symm.trans (h.ticker ht').2.2.1
  base hempty _ ht _ ht' hne hne' :=
    (h.base hempty ht hne).symm.trans (h.base hempty ht' hne')
  quote hempty _ ht _ ht' hne hne' :=
    (h.quote hempty ht hne).symm.trans (h.quote hempty ht' hne')

/-- Rows that are equal to themselves and do not change have no difference. -/
theorem diffMarketRows_self {rows : Rows F} (hkeyed : Keyed rows)
    (hself : ∀ (key : String) (row : MarketRow F), rows[key]? = some row → (row == row) = true) :
    diffMarketRows rows rows = ([], []) := by
  refine Prod.ext ?_ ?_
  · refine List.eq_nil_iff_forall_not_mem.2 fun row hrow => ?_
    obtain ⟨hget, hdiff⟩ := (mem_diff_updated hkeyed).1 hrow
    have heq := hself _ _ hget
    rw [hdiff row hget] at heq
    cases heq
  · exact List.eq_nil_iff_forall_not_mem.2 fun symbol hsymbol => by
      obtain ⟨hmem, hnot⟩ := mem_diff_removed.1 hsymbol
      exact hnot hmem

variable [UnicodeCase]

/-- **When the order of the maps does not matter**: if and only if no symbol is ambiguous. Then a
second rebuild of the same data has no delta to publish, if no number of the rows is a NaN. -/
theorem rows_order_iff {state : ServiceState F} (h : Reach refreshStep anyStep (· = {}) state)
    (now : Nat) (config : Config F) :
    (OrderIndependent state now config.staleAfterMs config.fundingIntervalHours ↔
      ∀ key, Unambiguous state key) ∧
    ((∀ key, Unambiguous state key) →
      (∀ (key : String) (row : MarketRow F), (buildMarketRows state now config.staleAfterMs
        config.fundingIntervalHours)[key]? = some row → (row == row) = true) →
      ∀ state', Reordered state state' →
        state'.markets = (rebuildAndPublish config now state).1.markets →
        (rebuildAndPublish config now state').2 = none) := by
  have hcollected := Collected.of_reach h
  have hindependent : (∀ key, Unambiguous state key) →
      OrderIndependent state now config.staleAfterMs config.fundingIntervalHours := by
    intro hall state' hreordered
    refine ExtTreeMap.ext_getElem? fun key => ?_
    rw [buildMarketRows_get, buildMarketRows_get, joinedRow_eq, joinedRow_eq,
      (hall key).rowOf_eq hcollected hreordered]
    simp only [hreordered.listed key]
  refine ⟨⟨OrderIndependent.unambiguous, hindependent⟩,
    fun hall hself state' hreordered hmarkets => ?_⟩
  have hrows := hindependent hall state' hreordered
  -- the first rebuild found no difference, or its rows are there
  have hdiff : diffMarketRows state'.markets
      (buildMarketRows state' now config.staleAfterMs config.fundingIntervalHours) = ([], []) := by
    rw [hrows, hmarkets]
    unfold rebuildAndPublish
    simp only
    split
    · rename_i hempty
      rw [Bool.and_eq_true, List.isEmpty_iff, List.isEmpty_iff] at hempty
      exact Prod.ext hempty.1 hempty.2
    · exact diffMarketRows_self (buildMarketRows_keyed state now _ _) hself
  unfold rebuildAndPublish
  simp only [hdiff, List.isEmpty_nil, Bool.and_self, if_true]

end

/-! ## Two products of one name -/

section
attribute [local instance] asciiCase

def orderConfig : Config Rat := ⟨20000, 1⟩

/-- Two products of two names, a ticker of each, and one without a name. -/
def twoNames : List (Response Rat × Nat) :=
  [(.symbols (.ok [⟨24, "kBTC-PERP", "perp"⟩, ⟨61, "ETH-PERP", "perp"⟩, ⟨7, " ", "spot"⟩]), 1),
    (.tickers (.ok [⟨61, "ETH-PERP_USDC", "ETH", "USDC", 3500, 20, 70000, 2⟩,
      ⟨24, "KBTC-PERP_USDC", "kBTC", "USDC", 65, 10, 650, 1⟩]), 2)]

/-- A map that enumerates backwards. -/
def backwards {K V : Type} (m : AList fun _ : K => V) : AList fun _ : K => V :=
  ⟨m.entries.reverse, (List.perm_nodupKeys m.entries.reverse_perm).2 m.nodupKeys⟩

theorem values_backwards {K V X : Type} (m : AList fun _ : K => V) (f : V → X) :
    (values (backwards m)).map f = ((values m).map f).reverse := by
  unfold values
  rw [← List.map_reverse, ← List.map_reverse]
  rfl

/-- Both maps of the two products have two orders, and their rows are the same in both. -/
theorem rows_order_iff_twoNames : ∃ s s' : ServiceState Rat,
    run refreshStep anyStep {} twoNames = some s ∧ Reordered s s' ∧
    (values s.symbols).map (·.productId) = [61, 24] ∧
    (values s'.symbols).map (·.productId) = [24, 61] ∧
    (values s.tickers).map (·.productId) = [24, 61] ∧
    (values s'.tickers).map (·.productId) = [61, 24] ∧
    buildMarketRows s' 3 20000 1 = buildMarketRows s 3 20000 1 ∧
    (rebuildAndPublish orderConfig 3 s').2 = none := by
  have hrun : (run refreshStep anyStep {} twoNames).map (fun s =>
      ((values s.symbols).map fun m => (m.symbol, m.productId),
        (values s.tickers).map fun t => (symbolKey s t.productId t.tickerId, t.productId),
        values s.contracts)) =
      some ([("ETH-PERP", 61), ("KBTC-PERP", 24)], [("KBTC-PERP", 24), ("ETH-PERP", 61)], []) := by
    decide
  obtain ⟨s, hs, hvalues⟩ := Option.map_eq_some_iff.1 hrun
  simp only [Prod.mk.injEq] at hvalues
  obtain ⟨hsymbols, htickers, hcontracts⟩ := hvalues
  have hunambiguous : ∀ key, Unambiguous s key := by
    refine Unambiguous.of_nodup ?_ ?_ hcontracts
    · have hnames := congrArg (List.map Prod.fst) hsymbols
      rw [List.map_map] at hnames
      exact hnames ▸ by decide
    · have hnames := congrArg (List.map Prod.fst) htickers
      rw [List.map_map] at hnames
      exact hnames ▸ by decide
  have hproducts := congrArg (List.map Prod.snd) hsymbols
  have hproducts' := congrArg (List.map Prod.snd) htickers
  rw [List.map_map] at hproducts hproducts'
  obtain ⟨hindependent, hnone⟩ := rows_order_iff (Reach.of_run (.start rfl) hs) 3 orderConfig
  let s' : ServiceState Rat :=
    { s with
      symbols := backwards s.symbols
      tickers := backwards s.tickers
      markets := (rebuildAndPublish orderConfig 3 s).1.markets }
  have hreordered : Reordered s s' := ⟨List.reverse_perm _, List.reverse_perm _, .refl _⟩
  refine ⟨s, s', hs, hreordered, hproducts, ?_, hproducts', ?_,
    hindependent.2 hunambiguous s' hreordered,
    hnone hunambiguous (fun _ _ _ => BEq.rfl) s' hreordered rfl⟩
  · exact (values_backwards s.symbols (·.productId)).trans (congrArg List.reverse hproducts)
  · exact (values_backwards s.tickers (·.productId)).trans (congrArg List.reverse hproducts')

/-- The names of two products differ in case only. -/
def twoCases : List (Response Rat × Nat) :=
  [(.symbols (.ok [⟨24, "kBTC-PERP", "perp"⟩, ⟨61, "KBTC-PERP", "perp"⟩]), 1)]

/-- The row is that of the product that the map enumerates last. -/
theorem rows_depend_on_order : ¬ ∀ state : ServiceState Rat,
    Reach refreshStep anyStep (· = {}) state →
      OrderIndependent state 1 orderConfig.staleAfterMs orderConfig.fundingIntervalHours := by
  intro h
  have hrun : (run refreshStep anyStep {} twoCases).map (owners · "KBTC-PERP") =
      some [61, 24] := by decide
  obtain ⟨s, hs, howners⟩ := Option.map_eq_some_iff.1 hrun
  have hone := ((h s (Reach.of_run (.start rfl) hs)).unambiguous "KBTC-PERP").owner
  rw [howners] at hone
  have heq : (61 : UInt32) = 24 := hone 61 (by simp) 24 (by simp)
  exact absurd heq (by decide)

end

end Markets
