import Mathlib.Data.List.Induction
import Thornado.Lib.KeyedFold
import Thornado.Markets.Service

/-!
# The join of the three sources

`build_market_rows` makes three passes over one map of rows. Seen at one symbol, only the entries
filed under that symbol matter, and each field of the row is a fold over them.

* `buildMarketRows_get`, `joinedRow_eq`: the row of a symbol and its fields.
* `rows_exact`: where every product has a symbol of its own, every row has the data of its product
  and of no other one.
-/

namespace Markets

open Rust Std

variable {F : Type}

/-! ## The entries filed under a symbol -/

section
variable (state : ServiceState F) (key : String)

def symbolsAt : List SymbolMeta := (values state.symbols).filter (·.symbol = key)

def tickersAt : List (TickerMeta F) :=
  (values state.tickers).filter fun t => symbolKey state t.productId t.tickerId = key

def contractsAt : List (ContractMeta F) :=
  (values state.contracts).filter fun c => symbolKey state c.productId c.tickerId = key

/-- Some source has an entry for the symbol. -/
def Listed : Prop :=
  symbolsAt state key ≠ [] ∨ tickersAt state key ≠ [] ∨ contractsAt state key ≠ []

instance : Decidable (Listed state key) :=
  inferInstanceAs (Decidable (_ ≠ [] ∨ _ ≠ [] ∨ _ ≠ []))

end

theorem insert_get (rows : Rows F) (key k : String) (row : MarketRow F) :
    (rows.insert key row)[k]? = if key = k then some row else rows[k]? := by
  rw [ExtTreeMap.getElem?_insert]
  simp only [Std.compare_eq_iff_eq]

/-- A row without data. -/
def blankRow (key : String) : MarketRow F := symbolRow ⟨0, key, "unknown", "", "", 0⟩

theorem mem_symbolsAt {state : ServiceState F} {key : String} {m : SymbolMeta}
    (hm : m ∈ symbolsAt state key) :
    m.symbol = key ∧ ∃ p, state.symbols.lookup p = some m := by
  obtain ⟨hmem, hkey⟩ := List.mem_filter.1 hm
  obtain ⟨⟨p, m⟩, hentry, rfl⟩ := List.mem_map.1 hmem
  exact ⟨of_decide_eq_true hkey, p, AList.mem_lookup_iff.2 hentry⟩

/-! ## The three passes at a symbol -/

theorem insertSymbol_at (as : List SymbolMeta) (rows : Rows F) (key : String) :
    (as.foldl insertSymbol rows)[key]? =
      (((as.filter (·.symbol = key)).getLast?.map symbolRow).or rows[key]?) := by
  have hlocal : KeyedFold.Local (fun (rows : Rows F) k => rows[k]?) SymbolMeta.symbol
      insertSymbol := by
    intro rows m k hk
    simp only [insertSymbol, insert_get, if_neg hk]
  rw [hlocal.foldl_at (u := fun _ m => some (symbolRow m)) fun rows m hk => by
    simp only [insertSymbol, insert_get, if_pos hk], KeyedFold.foldl_last]
  cases (as.filter (·.symbol = key)).getLast? <;> rfl

section
variable [F64 F]

/-- The row of a symbol before the last pass. -/
def joinedRow (state : ServiceState F) (hours : F) (key : String) : MarketRow F :=
  (contractsAt state key).foldl (fun row c => applyContract hours c row)
    ((tickersAt state key).foldl (fun row t => applyTicker t row)
      (((symbolsAt state key).getLast?.map symbolRow).getD (blankRow key)))

theorem insertTicker_at (state : ServiceState F) (rows : Rows F) (key : String) :
    ((values state.tickers).foldl (insertTicker state) rows)[key]? =
      if tickersAt state key = [] then rows[key]?
      else some ((tickersAt state key).foldl (fun row t => applyTicker t row)
        (rows[key]?.getD (blankRow key))) := by
  have hlocal : KeyedFold.Local (fun (rows : Rows F) k => rows[k]?)
      (fun t => symbolKey state t.productId t.tickerId) (insertTicker state) := by
    intro rows t k hk
    simp only [insertTicker, insert_get, if_neg hk]
  rw [hlocal.foldl_at (u := fun row t => some (applyTicker t (row.getD (tickerRow key t))))
    fun rows t hk => by
      subst hk
      simp only [insertTicker, insert_get, if_true]]
  refine KeyedFold.foldl_start (u := fun row t => applyTicker t row) (fun t => ?_) _ _
  simp only [applyTicker, tickerRow, blankRow, symbolRow, if_true, Nat.max_self, Nat.zero_max]
  congr 1 <;> exact ite_self _

theorem insertContract_at (state : ServiceState F) (hours : F) (rows : Rows F) (key : String) :
    ((values state.contracts).foldl (insertContract state hours) rows)[key]? =
      if contractsAt state key = [] then rows[key]?
      else some ((contractsAt state key).foldl (fun row c => applyContract hours c row)
        (rows[key]?.getD (blankRow key))) := by
  have hlocal : KeyedFold.Local (fun (rows : Rows F) k => rows[k]?)
      (fun c => symbolKey state c.productId c.tickerId) (insertContract state hours) := by
    intro rows c k hk
    simp only [insertContract, insert_get, if_neg hk]
  rw [hlocal.foldl_at
    (u := fun row c => some (applyContract hours c (row.getD (contractRow key c))))
    fun rows c hk => by
      subst hk
      simp only [insertContract, insert_get, if_true]]
  refine KeyedFold.foldl_start (u := fun row c => applyContract hours c row) (fun c => ?_) _ _
  simp only [applyContract, contractRow, blankRow, symbolRow, if_true, Nat.max_self, Nat.zero_max,
    true_or]
  congr 1 <;> exact ite_self _

/-- **The row of a symbol**: there is one if some source has an entry for the symbol. -/
theorem buildMarketRows_get (state : ServiceState F) (now staleAfterMs : Nat) (hours : F)
    (key : String) : (buildMarketRows state now staleAfterMs hours)[key]? =
      if Listed state key then some (finishRow now staleAfterMs (joinedRow state hours key))
      else none := by
  unfold buildMarketRows
  rw [ExtTreeMap.getElem?_map, insertContract_at, insertTicker_at, insertSymbol_at]
  have hsymbols : ((values state.symbols).filter (·.symbol = key)) = symbolsAt state key := rfl
  rw [hsymbols, ExtTreeMap.getElem?_empty, Option.or_none]
  unfold joinedRow Listed
  by_cases hs : symbolsAt state key = []
  · by_cases ht : tickersAt state key = [] <;> by_cases hc : contractsAt state key = [] <;>
      simp [hs, ht, hc]
  · obtain ⟨m, hm⟩ := Option.isSome_iff_exists.1 (List.getLast?_isSome.2 hs)
    by_cases ht : tickersAt state key = [] <;> by_cases hc : contractsAt state key = [] <;>
      simp [hs, ht, hc, hm]

end

/-! ## The fields of a row -/

/-- The last of these, if there is one. -/
def lastOf {X : Type} (default : X) (xs : List X) : X := xs.getLast?.getD default

@[simp] theorem lastOf_nil {X : Type} (x : X) : lastOf x [] = x := rfl

@[simp] theorem lastOf_append {X : Type} (x y : X) (xs : List X) : lastOf x (xs ++ [y]) = y := by
  simp [lastOf]

@[simp] theorem lastOf_cons {X : Type} (x y : X) (ys : List X) :
    lastOf x (y :: ys) = lastOf y ys := by
  simp [lastOf, List.getLast?_cons]

theorem lastOf_mem {X : Type} (x : X) {xs : List X} (h : xs ≠ []) : lastOf x xs ∈ xs := by
  obtain ⟨ys, y, rfl⟩ := (List.eq_nil_or_concat' xs).resolve_left h
  rw [lastOf_append]
  exact List.mem_append_right _ (List.mem_singleton_self y)

/-- The first of these that is not empty. -/
def firstNonempty : List String → String
  | [] => ""
  | name :: names => if name = "" then firstNonempty names else name

@[simp] theorem firstNonempty_nil : firstNonempty [] = "" := rfl

theorem firstNonempty_cons (name : String) (names : List String) :
    firstNonempty (name :: names) = if name = "" then firstNonempty names else name := rfl

@[simp] theorem firstNonempty_cons_empty (names : List String) :
    firstNonempty ("" :: names) = firstNonempty names := rfl

@[simp] theorem firstNonempty_singleton (name : String) : firstNonempty [name] = name := by
  rw [firstNonempty_cons]
  split
  · rename_i h
    rw [h, firstNonempty_nil]
  · rfl

theorem firstNonempty_append (names names' : List String) :
    firstNonempty (names ++ names') =
      if firstNonempty names = "" then firstNonempty names' else firstNonempty names := by
  induction names with
  | nil => rfl
  | cons first names ih =>
    rw [List.cons_append, firstNonempty_cons, firstNonempty_cons, ih]
    split <;> rfl

/-- What a contract makes of the market type so far. -/
def fillType (marketType contractType : String) : String :=
  if marketType = "unknown" ∨ marketType = "" then contractType else marketType

section
variable [F64 F]

/-- The row of these entries, in this order. -/
def rowOf (hours : F) (key : String) (ms : List SymbolMeta) (ts : List (TickerMeta F))
    (cs : List (ContractMeta F)) : MarketRow F where
  symbol := lastOf key (ms.map (·.symbol))
  tickerId :=
    lastOf (lastOf key (ms.map (·.symbol))) (ts.map (·.tickerId) ++ cs.map (·.tickerId))
  productId :=
    lastOf (lastOf 0 (ms.map (·.productId))) (ts.map (·.productId) ++ cs.map (·.productId))
  marketType := (cs.map (·.marketType)).foldl fillType (lastOf "unknown" (ms.map (·.marketType)))
  base := firstNonempty (lastOf "" (ms.map (·.base)) :: (ts.map (·.base) ++ cs.map (·.base)))
  quote := firstNonempty (lastOf "" (ms.map (·.quote)) :: (ts.map (·.quote) ++ cs.map (·.quote)))
  price := lastOf none (ts.map (finiteOption ·.lastPrice))
  change24h := lastOf none (ts.map (finiteOption ·.change24h))
  volume24h := lastOf none (ts.map fun t => preferredVolume t.baseVolume t.quoteVolume)
  annFunding := lastOf none
    (cs.map fun c => (finiteOption c.fundingRate).map (annualizeFundingRate · hours))
  fundingRate := lastOf none (cs.map (finiteOption ·.fundingRate))
  markPrice := lastOf none (cs.map (finiteOption ·.markPrice))
  indexPrice := lastOf none (cs.map (finiteOption ·.indexPrice))
  openInterest := lastOf none (cs.map (finiteOption ·.openInterest))
  openInterestUsd := lastOf none (cs.map (finiteOption ·.openInterestUsd))
  updatedAt := (ts.map (·.updatedAt) ++ cs.map (·.updatedAt)).foldl max
    (lastOf 0 (ms.map (·.updatedAt)))
  stale := false

theorem rowOf_symbols (hours : F) (key : String) (ms : List SymbolMeta) :
    rowOf hours key ms [] [] = ((ms.getLast?.map symbolRow).getD (blankRow key)) := by
  induction ms using List.reverseRecOn with
  | nil => simp [rowOf, blankRow, symbolRow]
  | append_singleton ms m => simp [rowOf, symbolRow]

theorem rowOf_ticker (hours : F) (key : String) (ms : List SymbolMeta) (ts : List (TickerMeta F))
    (t : TickerMeta F) : rowOf hours key ms (ts ++ [t]) [] =
      applyTicker t (rowOf hours key ms ts []) := by
  simp only [rowOf, applyTicker, List.map_append, List.map_cons, List.map_nil, List.append_nil,
    ← List.cons_append, lastOf_append, firstNonempty_append,
    firstNonempty_singleton, List.foldl_concat, List.foldl_nil]

theorem rowOf_contract (hours : F) (key : String) (ms : List SymbolMeta)
    (ts : List (TickerMeta F)) (cs : List (ContractMeta F)) (c : ContractMeta F) :
    rowOf hours key ms ts (cs ++ [c]) = applyContract hours c (rowOf hours key ms ts cs) := by
  simp only [rowOf, applyContract, fillType, List.map_append, List.map_cons, List.map_nil,
    ← List.append_assoc, ← List.cons_append, lastOf_append, firstNonempty_append,
    firstNonempty_singleton, List.foldl_concat]

/-- **The fields of the row of a symbol.** -/
theorem joinedRow_eq (state : ServiceState F) (hours : F) (key : String) :
    joinedRow state hours key =
      rowOf hours key (symbolsAt state key) (tickersAt state key) (contractsAt state key) := by
  have htickers : ∀ (ms : List SymbolMeta) (ts : List (TickerMeta F)),
      ts.foldl (fun row t => applyTicker t row)
        ((ms.getLast?.map symbolRow).getD (blankRow key)) = rowOf hours key ms ts [] := by
    intro ms ts
    induction ts using List.reverseRecOn with
    | nil => rw [List.foldl_nil, rowOf_symbols]
    | append_singleton ts t ih => rw [List.foldl_concat, ih, rowOf_ticker]
  unfold joinedRow
  rw [htickers]
  induction contractsAt state key using List.reverseRecOn with
  | nil => rfl
  | append_singleton cs c ih => rw [List.foldl_concat, ih, rowOf_contract]

end

/-! ## One product for each symbol -/

theorem filter_dlookup {K V : Type} [DecidableEq K] {k : K} {q : V → Bool} :
    ∀ entries : List (Sigma fun _ : K => V), entries.NodupKeys →
      (∀ e ∈ entries, q e.2 = true ↔ e.1 = k) →
      (entries.map (·.2)).filter q = (entries.dlookup k).toList
  | [], _, _ => rfl
  | e :: entries, hnodup, hq => by
    obtain ⟨hnew, hrest⟩ := List.nodupKeys_cons.1 hnodup
    have ih := filter_dlookup entries hrest fun e' he' => hq e' (List.mem_cons_of_mem _ he')
    obtain ⟨k', v⟩ := e
    rw [List.map_cons]
    by_cases hk : k' = k
    · subst hk
      rw [List.filter_cons_of_pos ((hq _ List.mem_cons_self).2 rfl), ih, List.dlookup_cons_eq,
        List.dlookup_eq_none.2 hnew]
      rfl
    · rw [List.filter_cons_of_neg fun hv => hk ((hq _ List.mem_cons_self).1 hv), ih,
        List.dlookup_cons_ne _ _ (Ne.symm hk)]

/-- The entries of one source that are filed under a symbol, where those of a product are filed
under its symbol: the product's only, if no other one has that symbol. -/
theorem filed_eq {V : Type} {m : AList fun _ : UInt32 => V} {key : V → String}
    {symbol : UInt32 → String} (hkey : ∀ p v, m.lookup p = some v → key v = symbol p) {p : UInt32}
    (hinj : ∀ q v, m.lookup q = some v → symbol q = symbol p → q = p) :
    (values m).filter (key · = symbol p) = (m.lookup p).toList := by
  refine filter_dlookup m.entries m.nodupKeys fun e he => ?_
  have hlookup : m.lookup e.1 = some e.2 := AList.mem_lookup_iff.2 he
  rw [decide_eq_true_iff, hkey _ _ hlookup]
  exact ⟨fun h => hinj _ _ hlookup h, fun h => congrArg symbol h⟩

theorem exists_of_filed {V : Type} {m : AList fun _ : UInt32 => V} {key : V → String}
    {symbol : UInt32 → String} (hkey : ∀ p v, m.lookup p = some v → key v = symbol p) {k : String}
    (h : (values m).filter (key · = k) ≠ []) : ∃ p, (m.lookup p).isSome ∧ symbol p = k := by
  obtain ⟨v, hv⟩ := List.exists_mem_of_ne_nil _ h
  obtain ⟨hmem, hk⟩ := List.mem_filter.1 hv
  obtain ⟨⟨p, v⟩, hentry, rfl⟩ := List.mem_map.1 hmem
  have hlookup : m.lookup p = some v := AList.mem_lookup_iff.2 hentry
  refine ⟨p, by rw [hlookup]; rfl, ?_⟩
  rw [← hkey p v hlookup]
  exact of_decide_eq_true hk

/-- The product is in one of the sources. -/
def Present (state : ServiceState F) (p : UInt32) : Prop :=
  (state.symbols.lookup p).isSome ∨ (state.tickers.lookup p).isSome ∨
    (state.contracts.lookup p).isSome

instance (state : ServiceState F) (p : UInt32) : Decidable (Present state p) :=
  inferInstanceAs (Decidable (_ ∨ _ ∨ _))

/-- All entries of a product resolve to its symbol, and no other product's do. -/
structure Resolves (state : ServiceState F) (symbol : UInt32 → String) : Prop where
  symbols : ∀ p m, state.symbols.lookup p = some m → m.symbol = symbol p
  tickers : ∀ p t, state.tickers.lookup p = some t →
    symbolKey state t.productId t.tickerId = symbol p
  contracts : ∀ p c, state.contracts.lookup p = some c →
    symbolKey state c.productId c.tickerId = symbol p
  injective : ∀ p q, Present state p → Present state q → symbol p = symbol q → p = q

section
variable {state : ServiceState F} {symbol : UInt32 → String}

theorem Resolves.symbolsAt (h : Resolves state symbol) {p : UInt32} (hp : Present state p) :
    symbolsAt state (symbol p) = (state.symbols.lookup p).toList :=
  filed_eq h.symbols fun q _ hq => h.injective q p (.inl (by rw [hq]; rfl)) hp

theorem Resolves.tickersAt (h : Resolves state symbol) {p : UInt32} (hp : Present state p) :
    tickersAt state (symbol p) = (state.tickers.lookup p).toList :=
  filed_eq h.tickers fun q _ hq => h.injective q p (.inr (.inl (by rw [hq]; rfl))) hp

theorem Resolves.contractsAt (h : Resolves state symbol) {p : UInt32} (hp : Present state p) :
    contractsAt state (symbol p) = (state.contracts.lookup p).toList :=
  filed_eq h.contracts fun q _ hq => h.injective q p (.inr (.inr (by rw [hq]; rfl))) hp

/-- The symbols that some source lists are those of the products. -/
theorem Resolves.listed (h : Resolves state symbol) {key : String} :
    Listed state key ↔ ∃ p, Present state p ∧ symbol p = key := by
  constructor
  · rintro (hs | ht | hc)
    · obtain ⟨p, hp, hk⟩ := exists_of_filed h.symbols hs
      exact ⟨p, .inl hp, hk⟩
    · obtain ⟨p, hp, hk⟩ := exists_of_filed h.tickers ht
      exact ⟨p, .inr (.inl hp), hk⟩
    · obtain ⟨p, hp, hk⟩ := exists_of_filed h.contracts hc
      exact ⟨p, .inr (.inr hp), hk⟩
  · rintro ⟨p, hp, rfl⟩
    unfold Listed
    rw [h.symbolsAt hp, h.tickersAt hp, h.contractsAt hp]
    simp only [ne_eq, Option.toList_eq_nil_iff, ← Option.isSome_iff_ne_none]
    exact hp

end

/-! ## The row of a product -/

section
variable [F64 F]

/-- The row of a product with these entries in the three sources. A number that is not finite is
left out; the volume is that in the quote currency if it is positive, else that in the base
currency; the funding of one interval is a fraction, or percent if it is above one. -/
def productRow (symbol : String) (p : UInt32) (m : Option SymbolMeta) (t : Option (TickerMeta F))
    (c : Option (ContractMeta F)) (now staleAfterMs : Nat) (hours : F) : MarketRow F :=
  let tickerId := ((c.map (·.tickerId)).or (t.map (·.tickerId))).getD symbol
  let contractType := (c.map (·.marketType)).getD "unknown"
  let newest := max (max (m.elim 0 (·.updatedAt)) (t.elim 0 (·.updatedAt))) (c.elim 0 (·.updatedAt))
  let updatedAt := if newest = 0 then now else newest
  let finite (v : F) : Option F := if F64.isFinite v then some v else none
  let funding (rate : F) : F := if F64.gt (F64.abs rate) (F64.ofInt 1) then
    F64.div rate (F64.ofInt 100) else rate
  let perDay := F64.max (F64.div (F64.ofInt 24) hours) (F64.ofInt 1)
  { symbol := symbol
    tickerId := if tickerId = "" then symbol else tickerId
    productId := p
    marketType := m.elim contractType fun m =>
      if m.marketType = "unknown" then contractType else m.marketType
    base := firstNonempty (m.toList.map (·.base) ++ t.toList.map (·.base) ++ c.toList.map (·.base))
    quote :=
      firstNonempty (m.toList.map (·.quote) ++ t.toList.map (·.quote) ++ c.toList.map (·.quote))
    price := t.bind fun t => finite t.lastPrice
    change24h := t.bind fun t => finite t.change24h
    volume24h := t.bind fun t =>
      if F64.isFinite t.quoteVolume ∧ F64.gt t.quoteVolume (F64.ofInt 0) then some t.quoteVolume
      else if F64.isFinite t.baseVolume ∧
        (F64.isFinite t.quoteVolume → F64.gt t.baseVolume (F64.ofInt 0)) then some t.baseVolume
      else if F64.isFinite t.quoteVolume ∧ ¬F64.isFinite t.baseVolume then some t.quoteVolume
      else none
    annFunding := c.bind fun c => (finite c.fundingRate).map fun rate =>
      F64.mul (F64.mul (F64.mul (funding rate) perDay) (F64.ofInt 365)) (F64.ofInt 100)
    fundingRate := c.bind fun c => finite c.fundingRate
    markPrice := c.bind fun c => finite c.markPrice
    indexPrice := c.bind fun c => finite c.indexPrice
    openInterest := c.bind fun c => finite c.openInterest
    openInterestUsd := c.bind fun c => finite c.openInterestUsd
    updatedAt := updatedAt
    stale := decide (now - updatedAt > staleAfterMs) }

/-- The volume of a row: which of the two finite ones. -/
theorem preferredVolume_eq (baseVolume quoteVolume : F) :
    preferredVolume baseVolume quoteVolume =
      if F64.isFinite quoteVolume ∧ F64.gt quoteVolume (F64.ofInt 0) then some quoteVolume
      else if F64.isFinite baseVolume ∧
        (F64.isFinite quoteVolume → F64.gt baseVolume (F64.ofInt 0)) then some baseVolume
      else if F64.isFinite quoteVolume ∧ ¬F64.isFinite baseVolume then some quoteVolume
      else none := by
  unfold preferredVolume finiteOption
  by_cases hq : F64.isFinite quoteVolume = true <;> by_cases hb : F64.isFinite baseVolume = true <;>
    simp [hq, hb]

attribute [local simp] finiteOption preferredVolume_eq annualizeFundingRate in
/-- One entry at most from each source makes the row of their product. -/
theorem finishRow_rowOf {symbol : String} {p : UInt32} {m : Option SymbolMeta}
    {t : Option (TickerMeta F)} {c : Option (ContractMeta F)}
    (hm : ∀ e ∈ m, e.symbol = symbol ∧ e.productId = p ∧ e.marketType ≠ "")
    (ht : ∀ e ∈ t, e.productId = p) (hc : ∀ e ∈ c, e.productId = p)
    (hsome : m.isSome ∨ t.isSome ∨ c.isSome) (now staleAfterMs : Nat) (hours : F) :
    finishRow now staleAfterMs (rowOf hours symbol m.toList t.toList c.toList) =
      productRow symbol p m t c now staleAfterMs hours := by
  -- which of the sources have the product
  cases m with
  | none =>
    cases t with
    | none =>
      cases c with
      | none => simp at hsome
      | some c =>
        obtain rfl := hc c rfl
        simp [finishRow, rowOf, productRow, fillType]
    | some t =>
      obtain rfl := ht t rfl
      cases c with
      | none => simp [finishRow, rowOf, productRow]
      | some c =>
        have hp := hc c rfl
        simp [finishRow, rowOf, productRow, fillType, hp]
  | some m =>
    obtain ⟨rfl, rfl, htype⟩ := hm m rfl
    cases t with
    | none =>
      cases c with
      | none => simp [finishRow, rowOf, productRow]
      | some c =>
        have hp := hc c rfl
        simp [finishRow, rowOf, productRow, fillType, hp, htype]
    | some t =>
      have hp := ht t rfl
      cases c with
      | none => simp [finishRow, rowOf, productRow, hp]
      | some c =>
        have hpc := hc c rfl
        simp [finishRow, rowOf, productRow, fillType, hpc, htype]

/-- The entries are keyed by their product, and a symbol has a market type. -/
structure WellKeyed (state : ServiceState F) : Prop where
  symbol : ∀ p m, state.symbols.lookup p = some m → m.productId = p ∧ m.marketType ≠ ""
  ticker : ∀ p t, state.tickers.lookup p = some t → t.productId = p
  contract : ∀ p c, state.contracts.lookup p = some c → c.productId = p

/-- The row that the state has for a product. -/
def ServiceState.productRow (state : ServiceState F) (symbol : UInt32 → String)
    (now staleAfterMs : Nat) (hours : F) (p : UInt32) : MarketRow F :=
  Markets.productRow (symbol p) p (state.symbols.lookup p) (state.tickers.lookup p)
    (state.contracts.lookup p) now staleAfterMs hours

section
variable {state : ServiceState F} {symbol : UInt32 → String} (hkeyed : WellKeyed state)
  (h : Resolves state symbol) (now staleAfterMs : Nat) (hours : F)
include hkeyed h

theorem Resolves.get {p : UInt32} (hp : Present state p) :
    (buildMarketRows state now staleAfterMs hours)[symbol p]? =
      some (state.productRow symbol now staleAfterMs hours p) := by
  rw [buildMarketRows_get, if_pos (h.listed.2 ⟨p, hp, rfl⟩), joinedRow_eq, h.symbolsAt hp,
    h.tickersAt hp, h.contractsAt hp]
  refine congrArg some (finishRow_rowOf (fun m hm => ?_) (hkeyed.ticker p) (hkeyed.contract p) hp
    now staleAfterMs hours)
  exact ⟨h.symbols p m hm, hkeyed.symbol p m hm⟩

theorem Resolves.mem_marketsOf {row : MarketRow F} :
    row ∈ marketsOf (buildMarketRows state now staleAfterMs hours) ↔
      ∃ p, Present state p ∧ row = state.productRow symbol now staleAfterMs hours p := by
  rw [(buildMarketRows_keyed state now staleAfterMs hours).mem_marketsOf]
  constructor
  · intro hrow
    have hlisted : Listed state row.symbol := by
      rw [buildMarketRows_get] at hrow
      by_contra hnone
      rw [if_neg hnone] at hrow
      cases hrow
    obtain ⟨p, hp, hsymbol⟩ := h.listed.1 hlisted
    rw [← hsymbol, h.get hkeyed now staleAfterMs hours hp] at hrow
    exact ⟨p, hp, (Option.some.inj hrow).symm⟩
  · rintro ⟨p, hp, rfl⟩
    exact h.get hkeyed now staleAfterMs hours hp

/-- **The join is exact**: the rows that name a product are one if some source has the product, and
none otherwise; and that row has the data of the product's own entries. -/
theorem rows_exact (p : UInt32) :
    (marketsOf (buildMarketRows state now staleAfterMs hours)).filter (·.productId = p) =
      if Present state p then [state.productRow symbol now staleAfterMs hours p] else [] := by
  have hmem : ∀ row, row ∈ (marketsOf (buildMarketRows state now staleAfterMs hours)).filter
      (·.productId = p) ↔
      Present state p ∧ row = state.productRow symbol now staleAfterMs hours p := by
    intro row
    rw [List.mem_filter, h.mem_marketsOf hkeyed, decide_eq_true_iff]
    constructor
    · rintro ⟨⟨q, hq, rfl⟩, rfl⟩
      exact ⟨hq, rfl⟩
    · rintro ⟨hp, rfl⟩
      exact ⟨⟨p, hp, rfl⟩, rfl⟩
  have hnodup : ((marketsOf (buildMarketRows state now staleAfterMs hours)).filter
      (·.productId = p)).Nodup :=
    (marketsOf_nodup (buildMarketRows_keyed state now staleAfterMs hours)).filter _
  split
  · rename_i hp
    refine List.perm_singleton.1 ((List.perm_ext_iff_of_nodup hnodup (List.nodup_singleton _)).2 ?_)
    intro row
    rw [hmem, List.mem_singleton]
    exact ⟨fun hrow => hrow.2, fun hrow => ⟨hp, hrow⟩⟩
  · rename_i hp
    exact List.eq_nil_iff_forall_not_mem.2 fun row hrow => hp ((hmem row).1 hrow).1

end

end

/-! ## Two products -/

theorem forall_lookup {V : Type} {m : AList fun _ : UInt32 => V} {P : UInt32 → V → Prop}
    (h : ∀ e ∈ m.entries, P e.1 e.2) (p : UInt32) (v : V) (hv : m.lookup p = some v) : P p v :=
  h ⟨p, v⟩ (AList.mem_lookup_iff.1 hv)

/-- One product has no contract, the other one no symbol. -/
def twoProducts : ServiceState Rat where
  symbols := AList.insert 2 ⟨2, "BTC-PERP", "perp", "BTC", "PERP", 5⟩ ∅
  tickers := AList.insert 2 ⟨2, "BTC-PERP_USDC", "BTC", "USDC", 65000, 10, 650000, 1, 8⟩
    (AList.insert 4 ⟨4, "ETH-PERP_USDC", "ETH", "USDC", 3500, 20, 70000, 2, 8⟩ ∅)
  contracts :=
    AList.insert 4 ⟨4, "ETH-PERP_USDC", "ETH", "USDC", "perp", 1, 3501, 3499, 7, 24500, 6⟩ ∅

def symbolOf (p : UInt32) : String := if p = 2 then "BTC-PERP" else "ETH-PERP_USDC"

theorem rows_exact_twoProducts :
    (marketsOf (buildMarketRows twoProducts 9 20000 1)).filter (·.productId = 4) =
      [twoProducts.productRow symbolOf 9 20000 1 4] ∧
    (twoProducts.productRow symbolOf 9 20000 1 4).updatedAt = 8 := by
  have hkeyed : WellKeyed twoProducts :=
    ⟨forall_lookup (by decide), forall_lookup (by decide), forall_lookup (by decide)⟩
  have hpresent : ∀ p, Present twoProducts p → p = 2 ∨ p = 4 := by
    rintro p (h | h | h)
    all_goals
      obtain ⟨v, hv⟩ := Option.isSome_iff_exists.1 h
      exact forall_lookup (P := fun p _ => p = 2 ∨ p = 4) (by decide) p v hv
  have hresolves : Resolves twoProducts symbolOf := by
    refine ⟨forall_lookup (by decide), forall_lookup (by decide), forall_lookup (by decide), ?_⟩
    intro p q hp hq
    rcases hpresent p hp with rfl | rfl <;> rcases hpresent q hq with rfl | rfl <;> decide
  have hrow := rows_exact hkeyed hresolves 9 20000 1 4
  rw [if_pos (by decide)] at hrow
  exact ⟨hrow, by decide⟩

end Markets
