import Thornado.Symbols.Directory

/-!
# Looking up symbols

The lookup table of the symbol directory: a canonical name overwrites what is there, an alias does
not. The order of the upstream symbols is that of a hash map.

* `foldl_addSymbol_canonical`, `foldl_addSymbol_alias`: what a name resolves to.
* `canonical_lookup_iff`: the table does not depend on the order if and only if the products that
  share an alias, which is no canonical name, are one product.
-/

namespace Symbols

open Rust

theorem orInsert_lookup (lookup : AList fun _ : String => UInt32) (name other : String)
    (productId : UInt32) : (orInsert lookup name productId).lookup other =
      (lookup.lookup other).or (if name = other then some productId else none) := by
  unfold orInsert
  split
  · rename_i hmem
    split
    · rename_i heq
      subst heq
      obtain ⟨old, hold⟩ := Option.isSome_iff_exists.1 (AList.lookup_isSome.2 hmem)
      rw [hold]
      rfl
    · rw [Option.or_none]
  · rename_i hmem
    split
    · rename_i heq
      subst heq
      rw [AList.lookup_insert, AList.lookup_eq_none.2 hmem]
      rfl
    · rename_i hne
      rw [AList.lookup_insert_ne (Ne.symm hne), Option.or_none]

theorem aliasOf_ne_empty {canonical short : String} (h : aliasOf canonical = some short) :
    canonical ≠ "" := by
  rintro rfl
  cases h

section
variable [UnicodeCase]

def SymbolsResponseData.canonical (data : SymbolsResponseData) : String :=
  normalizeSymbol data.symbol

/-- The names under which the symbols are listed. -/
def canonicalNames (symbols : List SymbolsResponseData) : List String :=
  (symbols.map (·.canonical)).filter (· ≠ "")

/-- What the names resolve to, with the symbols in this order. -/
def lookupTable (symbols : List SymbolsResponseData) : Except String (String → Option UInt32) :=
  (loadSymbolDirectory (.ok symbols)).map fun directory name => directory.lookup.lookup name

/-- **The law of the lookup table**: the order of the symbols does not matter, and every canonical
name resolves to its own product, not to one that has it as an alias. -/
structure CanonicalLookup (symbols : List SymbolsResponseData) : Prop where
  stable : ∀ symbols', symbols'.Perm symbols → lookupTable symbols' = lookupTable symbols
  own : ∀ table, lookupTable symbols = .ok table → ∀ data ∈ symbols, data.canonical ≠ "" →
    table data.canonical = some data.productId

/-- Symbols that have an alias in common, which is no symbol's canonical name, are of one
product. -/
def AliasesAgree (symbols : List SymbolsResponseData) : Prop :=
  ∀ data ∈ symbols, ∀ data' ∈ symbols, ∀ short, aliasOf data.canonical = some short →
    aliasOf data'.canonical = some short → short ∉ canonicalNames symbols →
      data.productId = data'.productId

/-! ## What a name resolves to -/

theorem addSymbol_skip {data : SymbolsResponseData} (h : data.canonical = "")
    (directory : SymbolDirectory) : addSymbol directory data = directory := if_pos h

theorem addSymbol_lookup {data : SymbolsResponseData} (h : data.canonical ≠ "")
    (directory : SymbolDirectory) (name : String) :
    (addSymbol directory data).lookup.lookup name =
      if data.canonical = name then some data.productId
      else (directory.lookup.lookup name).or
        (if aliasOf data.canonical = some name then some data.productId else none) := by
  have hinsert : (directory.lookup.insert data.canonical data.productId).lookup name =
      if data.canonical = name then some data.productId else directory.lookup.lookup name := by
    split
    · rename_i heq
      rw [← heq, AList.lookup_insert]
    · rename_i hne
      rw [AList.lookup_insert_ne (Ne.symm hne)]
  have hnamed : normalizeSymbol data.symbol ≠ "" := h
  cases halias : aliasOf data.canonical with
  | none =>
    have hadd : (addSymbol directory data).lookup =
        directory.lookup.insert data.canonical data.productId := by
      unfold SymbolsResponseData.canonical at halias ⊢
      simp only [addSymbol, if_neg hnamed, halias]
    rw [hadd, hinsert]
    simp only [reduceCtorEq, if_false, Option.or_none]
  | some short =>
    have hadd : (addSymbol directory data).lookup =
        orInsert (directory.lookup.insert data.canonical data.productId) short data.productId := by
      unfold SymbolsResponseData.canonical at halias ⊢
      simp only [addSymbol, if_neg hnamed, halias]
    simp only [hadd, orInsert_lookup, hinsert, Option.some.injEq]
    split
    · rfl
    · rfl

theorem canonicalNames_cons {data : SymbolsResponseData} (h : data.canonical ≠ "")
    (symbols : List SymbolsResponseData) :
    canonicalNames (data :: symbols) = data.canonical :: canonicalNames symbols :=
  List.filter_cons_of_pos (by simpa using h)

theorem canonicalNames_cons_skip {data : SymbolsResponseData} (h : data.canonical = "")
    (symbols : List SymbolsResponseData) :
    canonicalNames (data :: symbols) = canonicalNames symbols :=
  List.filter_cons_of_neg (by simpa using h)

theorem mem_canonicalNames {symbols : List SymbolsResponseData} {name : String} :
    name ∈ canonicalNames symbols ↔ (∃ data ∈ symbols, data.canonical = name) ∧ name ≠ "" := by
  simp [canonicalNames]

/-- An alias resolves to the first symbol that has it, where no symbol has it as its name. -/
theorem foldl_addSymbol_alias {name : String} : ∀ (symbols : List SymbolsResponseData)
    (directory : SymbolDirectory), name ∉ canonicalNames symbols →
    (symbols.foldl addSymbol directory).lookup.lookup name = (directory.lookup.lookup name).or
      ((symbols.find? (aliasOf ·.canonical = some name)).map (·.productId))
  | [], directory, _ => (Option.or_none).symm
  | data :: symbols, directory, hname => by
    rw [List.foldl_cons]
    by_cases hempty : data.canonical = ""
    · have hnone : aliasOf data.canonical ≠ some name := fun h => aliasOf_ne_empty h hempty
      rw [canonicalNames_cons_skip hempty] at hname
      rw [addSymbol_skip hempty, foldl_addSymbol_alias symbols directory hname,
        List.find?_cons_of_neg (by simpa using hnone)]
    · rw [canonicalNames_cons hempty] at hname
      obtain ⟨hne, hrest⟩ := not_or.1 fun h => hname (List.mem_cons.2 h)
      rw [foldl_addSymbol_alias symbols _ hrest, addSymbol_lookup hempty, if_neg (Ne.symm hne),
        Option.or_assoc]
      by_cases halias : aliasOf data.canonical = some name
      · rw [if_pos halias, List.find?_cons_of_pos (by simpa using halias)]
        rfl
      · rw [if_neg halias, List.find?_cons_of_neg (by simpa using halias), Option.none_or]

/-- A name that is there stays as it is, if no symbol has it as its name. -/
theorem foldl_addSymbol_keep {name : String} {symbols : List SymbolsResponseData}
    {directory : SymbolDirectory} {productId : UInt32} (hname : name ∉ canonicalNames symbols)
    (h : directory.lookup.lookup name = some productId) :
    (symbols.foldl addSymbol directory).lookup.lookup name = some productId := by
  rw [foldl_addSymbol_alias symbols directory hname, h, Option.some_or]

/-- A canonical name resolves to its product. -/
theorem foldl_addSymbol_canonical : ∀ (symbols : List SymbolsResponseData)
    (directory : SymbolDirectory), (canonicalNames symbols).Nodup →
    ∀ data ∈ symbols, data.canonical ≠ "" →
      (symbols.foldl addSymbol directory).lookup.lookup data.canonical = some data.productId
  | first :: symbols, directory, hdistinct, data, hdata, hne => by
    rw [List.foldl_cons]
    by_cases hempty : first.canonical = ""
    · rw [canonicalNames_cons_skip hempty] at hdistinct
      rcases List.mem_cons.1 hdata with rfl | hdata
      · exact absurd hempty hne
      · exact foldl_addSymbol_canonical symbols _ hdistinct data hdata hne
    · rw [canonicalNames_cons hempty, List.nodup_cons] at hdistinct
      rcases List.mem_cons.1 hdata with rfl | hdata
      · refine foldl_addSymbol_keep hdistinct.1 ?_
        rw [addSymbol_lookup hempty, if_pos rfl]
      · exact foldl_addSymbol_canonical symbols _ hdistinct.2 data hdata hne

/-! ## The table -/

theorem foldl_addSymbol_symbols (symbols : List SymbolsResponseData) (directory : SymbolDirectory) :
    (symbols.foldl addSymbol directory).symbols.map (·.symbol) =
      directory.symbols.map (·.symbol) ++ canonicalNames symbols := by
  induction symbols generalizing directory with
  | nil => exact (List.append_nil _).symm
  | cons data symbols ih =>
    rw [List.foldl_cons, ih]
    by_cases hempty : data.canonical = ""
    · rw [addSymbol_skip hempty, canonicalNames_cons_skip hempty]
    · rw [canonicalNames_cons hempty]
      unfold addSymbol
      rw [if_neg (show normalizeSymbol data.symbol ≠ "" from hempty)]
      simp [SymbolsResponseData.canonical]

theorem lookupTable_eq (symbols : List SymbolsResponseData) :
    lookupTable symbols =
      if canonicalNames symbols = [] then .error "no symbols returned from Nado"
      else .ok fun name => (symbols.foldl addSymbol {}).lookup.lookup name := by
  have hnames : (symbols.foldl addSymbol {}).symbols.map (·.symbol) = canonicalNames symbols :=
    foldl_addSymbol_symbols symbols {}
  have hempty : dedupByKey SymbolInfo.symbol (sortByKey SymbolInfo.symbol
      (symbols.foldl addSymbol {}).symbols) = [] ↔ canonicalNames symbols = [] := by
    rw [← hnames, List.map_eq_nil_iff]
    constructor
    · intro hnil
      refine List.eq_nil_iff_forall_not_mem.2 fun info hinfo => ?_
      have hsorted : info ∈ sortByKey SymbolInfo.symbol (symbols.foldl addSymbol {}).symbols :=
        mem_sortByKey.2 hinfo
      obtain ⟨kept, hkept, -⟩ : ∃ kept ∈ dedupByKey SymbolInfo.symbol _, _ :=
        exists_mem_dedupByKey hsorted
      rw [hnil] at hkept
      cases hkept
    · intro hnil
      rw [hnil]
      rfl
  unfold lookupTable loadSymbolDirectory
  simp only [Except.mapError, bind, Except.bind, List.isEmpty_iff, hempty]
  split <;> rfl

/-- In a table, names are looked up in the directory. -/
theorem lookupTable_ok {symbols : List SymbolsResponseData} {data : SymbolsResponseData}
    (hdata : data ∈ symbols) (hne : data.canonical ≠ "") :
    lookupTable symbols = .ok fun name => (symbols.foldl addSymbol {}).lookup.lookup name := by
  rw [lookupTable_eq, if_neg]
  exact List.ne_nil_of_mem (mem_canonicalNames.2 ⟨⟨data, hdata, rfl⟩, hne⟩)

theorem AliasesAgree.lookup_eq {symbols symbols' : List SymbolsResponseData}
    (hdistinct : (canonicalNames symbols).Nodup) (hagree : AliasesAgree symbols)
    (hperm : symbols'.Perm symbols) (name : String) :
    (symbols'.foldl addSymbol {}).lookup.lookup name =
      (symbols.foldl addSymbol {}).lookup.lookup name := by
  have hnames : (canonicalNames symbols').Perm (canonicalNames symbols) := (hperm.map _).filter _
  by_cases hname : name ∈ canonicalNames symbols
  · obtain ⟨⟨data, hdata, rfl⟩, hne⟩ := mem_canonicalNames.1 hname
    rw [foldl_addSymbol_canonical symbols {} hdistinct data hdata hne,
      foldl_addSymbol_canonical symbols' {} (hnames.nodup_iff.2 hdistinct) data
        (hperm.mem_iff.2 hdata) hne]
  · rw [foldl_addSymbol_alias symbols {} hname,
      foldl_addSymbol_alias symbols' {} fun h => hname (hnames.mem_iff.1 h)]
    refine congrArg _ ?_
    -- the first symbol with the alias in one order and in the other
    cases hfirst : symbols.find? (aliasOf ·.canonical = some name) with
    | none =>
      have hnone : symbols'.find? (aliasOf ·.canonical = some name) = none := by
        rw [List.find?_eq_none] at hfirst ⊢
        exact fun data hdata => hfirst data (hperm.mem_iff.1 hdata)
      rw [hnone]
    | some data =>
      have hdata := List.mem_of_find?_eq_some hfirst
      have halias : aliasOf data.canonical = some name := by simpa using List.find?_some hfirst
      have hsome : (symbols'.find? (aliasOf ·.canonical = some name)).isSome :=
        List.find?_isSome.2 ⟨data, hperm.mem_iff.2 hdata, by simpa using halias⟩
      obtain ⟨data', hfirst'⟩ := Option.isSome_iff_exists.1 hsome
      have hdata' := hperm.mem_iff.1 (List.mem_of_find?_eq_some hfirst')
      have halias' : aliasOf data'.canonical = some name := by simpa using List.find?_some hfirst'
      rw [hfirst', Option.map_some, Option.map_some,
        hagree data' hdata' data hdata name halias' halias hname]

/-- With a symbol that has the alias in the first place, the alias is that symbol's. -/
theorem lookup_of_first {symbols : List SymbolsResponseData} {data : SymbolsResponseData}
    (hdata : data ∈ symbols) {short : String} (halias : aliasOf data.canonical = some short)
    (hshort : short ∉ canonicalNames symbols) :
    ∃ symbols' : List SymbolsResponseData, symbols'.Perm symbols ∧
      (symbols'.foldl addSymbol {}).lookup.lookup short = some data.productId := by
  obtain ⟨before, after, rfl⟩ := List.append_of_mem hdata
  have hperm : (data :: (before ++ after)).Perm (before ++ data :: after) :=
    List.perm_middle.symm
  refine ⟨_, hperm, ?_⟩
  have hnames : (canonicalNames (data :: (before ++ after))).Perm
      (canonicalNames (before ++ data :: after)) := (hperm.map _).filter _
  rw [foldl_addSymbol_alias _ {} fun h => hshort (hnames.mem_iff.1 h),
    List.find?_cons_of_pos (by simpa using halias)]
  rfl

/-- **When symbol lookup is canonical**: for symbols of distinct names, if and only if the symbols
that share an alias, which is no symbol's name, are of one product. -/
theorem canonical_lookup_iff {symbols : List SymbolsResponseData}
    (hdistinct : (canonicalNames symbols).Nodup) :
    CanonicalLookup symbols ↔ AliasesAgree symbols := by
  constructor
  · intro h data hdata data' hdata' short halias halias' hshort
    obtain ⟨first, hperm, hfirst⟩ := lookup_of_first hdata halias hshort
    obtain ⟨first', hperm', hfirst'⟩ := lookup_of_first hdata' halias' hshort
    have htables := (h.stable first hperm).trans (h.stable first' hperm').symm
    rw [lookupTable_ok (hperm.mem_iff.2 hdata) (aliasOf_ne_empty halias),
      lookupTable_ok (hperm'.mem_iff.2 hdata) (aliasOf_ne_empty halias)] at htables
    have hsame := congrFun (Except.ok.inj htables) short
    rw [hfirst, hfirst'] at hsame
    exact Option.some.inj hsame
  · intro hagree
    refine ⟨fun symbols' hperm => ?_, fun table htable data hdata hne => ?_⟩
    · have hnil : canonicalNames symbols' = [] ↔ canonicalNames symbols = [] := by
        have hnames : (canonicalNames symbols').Perm (canonicalNames symbols) :=
          (hperm.map _).filter _
        exact ⟨fun h => (h ▸ hnames.symm).eq_nil, fun h => (h ▸ hnames).eq_nil⟩
      rw [lookupTable_eq, lookupTable_eq, funext (hagree.lookup_eq hdistinct hperm)]
      simp only [hnil]
    · rw [lookupTable_ok hdata hne] at htable
      cases htable
      exact foldl_addSymbol_canonical symbols {} hdistinct data hdata hne

end

/-! ## One alias of two products -/

section
attribute [local instance] asciiCase

def usdcPerps : List SymbolsResponseData := [⟨2, "BTC-PERP_USDC"⟩, ⟨4, "ETH-PERP_USDC"⟩]

theorem canonical_lookup_iff_usdcPerps : CanonicalLookup usdcPerps := by
  have hbtc : aliasOf (SymbolsResponseData.canonical ⟨2, "BTC-PERP_USDC"⟩) = some "BTC-PERP" := by
    decide +kernel
  have heth : aliasOf (SymbolsResponseData.canonical ⟨4, "ETH-PERP_USDC"⟩) = some "ETH-PERP" := by
    decide +kernel
  refine (canonical_lookup_iff (by decide +kernel)).2 fun data hdata data' hdata' short => ?_
  simp only [usdcPerps, List.mem_cons, List.not_mem_nil, or_false] at hdata hdata'
  rcases hdata with rfl | rfl <;> rcases hdata' with rfl | rfl <;> simp [hbtc, heth]
  all_goals
    rintro rfl heq
    exact absurd heq (by decide)

/-- The perpetuals of one base in two currencies. -/
def btcPerps : List SymbolsResponseData := [⟨2, "BTC-PERP_USDC"⟩, ⟨4, "BTC-PERP_USDT"⟩]

/-- The alias is the product's that the map enumerates first. -/
theorem alias_depends_on_order : ¬ ∀ symbols : List SymbolsResponseData,
    (canonicalNames symbols).Nodup → CanonicalLookup symbols := by
  intro h
  have hstable := (h btcPerps (by decide +kernel)).stable btcPerps.reverse (List.reverse_perm _)
  have htables : (lookupTable btcPerps.reverse).toOption.map (· "BTC-PERP") = some (some 4) ∧
      (lookupTable btcPerps).toOption.map (· "BTC-PERP") = some (some 2) := by decide +kernel
  rw [hstable, htables.2] at htables
  exact absurd htables.1 (by decide)

end

end Symbols
