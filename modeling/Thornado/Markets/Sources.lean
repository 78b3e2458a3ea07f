import Thornado.Lib.Transition
import Thornado.Markets.Feed
import Thornado.Markets.Join

/-!
# What the refreshes collect

Each source map is what one refresh made of one payload, with one clock value. So the entries are
keyed by their product, a symbol's base and quote are read off its name, and the symbols all have
the same time.
-/

namespace Markets

open Rust Transition

variable {F : Type}

section
variable [UnicodeCase]

/-- A refresh that fails leaves the state as it is. -/
def refreshStep (state : ServiceState F) (a : Response F × Nat) : Option (ServiceState F) :=
  (refresh a.1 a.2 state).toOption

theorem collect_foldl {D M : Type} {name : D → String} {productId : D → UInt32}
    {mk : String → D → M} {p : UInt32} {v : M} : ∀ (payload : List D)
    (next : AList fun _ : UInt32 => M),
    (payload.foldl (fun next data =>
      let key := normalizeSymbol (name data)
      if key = "" then next else next.insert (productId data) (mk key data)) next).lookup p =
        some v →
      next.lookup p = some v ∨ ∃ key data, key ≠ "" ∧ p = productId data ∧ v = mk key data
  | [], _, h => .inl h
  | data :: payload, next, h => by
    rw [List.foldl_cons] at h
    rcases collect_foldl payload _ h with h | h
    · simp only at h
      split at h
      · exact .inl h
      · rename_i hkey
        by_cases hp : p = productId data
        · rw [hp, AList.lookup_insert] at h
          exact .inr ⟨_, data, hkey, hp, (Option.some.inj h).symm⟩
        · rw [AList.lookup_insert_ne hp] at h
          exact .inl h
    · exact .inr h

/-- An entry that a refresh collects is made from a datum of the payload. -/
theorem collect_lookup {D M : Type} {name : D → String} {productId : D → UInt32}
    {mk : String → D → M} {payload : List D} {p : UInt32} {v : M}
    (h : (collect name productId mk payload).lookup p = some v) :
    ∃ key data, key ≠ "" ∧ p = productId data ∧ v = mk key data := by
  rcases collect_foldl payload _ h with h | h
  · cases h
  · exact h

/-- The source maps are what refreshes collected. -/
structure Collected (state : ServiceState F) : Prop where
  symbols : ∃ now payload, state.symbols =
    collect SymbolData.symbol SymbolData.productId (symbolMeta now) payload
  tickers : ∃ now payload, state.tickers =
    collect TickerData.tickerId TickerData.productId (tickerMeta now) payload
  contracts : ∃ now payload, state.contracts =
    collect ContractData.tickerId ContractData.productId (contractMeta now) payload

theorem Collected.start : Collected ({} : ServiceState F) where
  symbols := ⟨0, [], rfl⟩
  tickers := ⟨0, [], rfl⟩
  contracts := ⟨0, [], rfl⟩

theorem Collected.refresh {response : Response F} {now : Nat} {state state' : ServiceState F}
    (hcollected : Collected state) (h : Markets.refresh response now state = .ok state') :
    Collected state' := by
  rcases refresh_cases h with ⟨payload, rfl⟩ | ⟨payload, rfl⟩ | ⟨payload, rfl⟩
  · exact { hcollected with symbols := ⟨now, payload, rfl⟩ }
  · exact { hcollected with tickers := ⟨now, payload, rfl⟩ }
  · exact { hcollected with contracts := ⟨now, payload, rfl⟩ }

theorem Collected.of_reach {state : ServiceState F}
    (h : Reach refreshStep anyStep (· = {}) state) : Collected state := by
  refine h.inv ?_ fun state a state' hcollected _ hstep => ?_
  · rintro _ rfl
    exact Collected.start
  · unfold refreshStep at hstep
    cases hrefresh : Markets.refresh a.1 a.2 state with
    | error err =>
      rw [hrefresh] at hstep
      cases hstep
    | ok next =>
      rw [hrefresh] at hstep
      cases hstep
      exact hcollected.refresh hrefresh

theorem normalizeMarketType_ne_empty (value : String) : normalizeMarketType value ≠ "" := by
  unfold normalizeMarketType
  simp only
  split
  · decide
  · rename_i h
    exact h

variable {state : ServiceState F}

theorem Collected.wellKeyed (h : Collected state) : WellKeyed state where
  symbol p m hm := by
    obtain ⟨now, payload, hsymbols⟩ := h.symbols
    rw [hsymbols] at hm
    obtain ⟨key, data, -, rfl, rfl⟩ := collect_lookup hm
    exact ⟨rfl, normalizeMarketType_ne_empty _⟩
  ticker p t ht := by
    obtain ⟨now, payload, htickers⟩ := h.tickers
    rw [htickers] at ht
    obtain ⟨key, data, -, rfl, rfl⟩ := collect_lookup ht
    rfl
  contract p c hc := by
    obtain ⟨now, payload, hcontracts⟩ := h.contracts
    rw [hcontracts] at hc
    obtain ⟨key, data, -, rfl, rfl⟩ := collect_lookup hc
    rfl

/-- The symbols have the base and the quote of their name, and one time. -/
theorem Collected.symbols_eq (h : Collected state) : ∃ now, ∀ p m,
    state.symbols.lookup p = some m →
      m.updatedAt = now ∧ m.base = (splitBaseQuote m.symbol).1 ∧
        m.quote = (splitBaseQuote m.symbol).2 := by
  obtain ⟨now, payload, hsymbols⟩ := h.symbols
  refine ⟨now, fun p m hm => ?_⟩
  rw [hsymbols] at hm
  obtain ⟨key, data, -, rfl, rfl⟩ := collect_lookup hm
  exact ⟨rfl, rfl, rfl⟩

/-- The symbols filed under one name differ in their product and their market type only. -/
theorem Collected.symbols_agree (h : Collected state) {key : String} {m m' : SymbolMeta}
    (hm : m ∈ symbolsAt state key) (hm' : m' ∈ symbolsAt state key) :
    m.symbol = m'.symbol ∧ m.base = m'.base ∧ m.quote = m'.quote ∧ m.updatedAt = m'.updatedAt := by
  obtain ⟨now, hall⟩ := h.symbols_eq
  obtain ⟨rfl, p, hp⟩ := mem_symbolsAt hm
  obtain ⟨hsymbol, q, hq⟩ := mem_symbolsAt hm'
  obtain ⟨htime, hbase, hquote⟩ := hall p m hp
  obtain ⟨htime', hbase', hquote'⟩ := hall q m' hq
  rw [hsymbol] at hbase' hquote'
  exact ⟨hsymbol.symm, hbase.trans hbase'.symm, hquote.trans hquote'.symm, htime.trans htime'.symm⟩

end

end Markets
