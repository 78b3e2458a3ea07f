import Mathlib.Data.String.Basic
import Thornado.Rust.Prelude
import Thornado.Rust.Sort

/-!
# The symbol directory

`load_symbol_directory` and `normalize_symbol`, which the chart gateway and the order book gateway
both define. The response is the list of the values of the symbols endpoint's map, in the order
its iterator yields them.
-/

namespace Symbols

open Rust

structure SymbolsResponseData where
  productId : UInt32
  symbol : String

structure SymbolInfo where
  symbol : String
  productId : UInt32
  deriving DecidableEq

structure SymbolDirectory where
  symbols : List SymbolInfo := []
  lookup : AList (fun _ : String => UInt32) := ∅

variable [UnicodeCase]

def normalizeSymbol (symbol : String) : String := UnicodeCase.toUppercase (trim symbol)

/-- `entry(name).or_insert(product_id)`. -/
def orInsert (lookup : AList fun _ : String => UInt32) (name : String) (productId : UInt32) :
    AList fun _ : String => UInt32 :=
  if name ∈ lookup then lookup else lookup.insert name productId

/-- The short name before the first underscore, as for BTC-PERP_USDC. -/
def aliasOf (canonical : String) : Option String :=
  (splitOnce canonical '_').bind fun (short, _) =>
    if trim short = "" then none else some (trim short)

/-- The loop's body. -/
def addSymbol (directory : SymbolDirectory) (data : SymbolsResponseData) : SymbolDirectory :=
  let canonical := normalizeSymbol data.symbol
  if canonical = "" then directory
  else
    let lookup := directory.lookup.insert canonical data.productId
    { symbols := directory.symbols ++ [⟨canonical, data.productId⟩]
      lookup := match aliasOf canonical with
        | some short => orInsert lookup short data.productId
        | none => lookup }

def loadSymbolDirectory (response : Except String (List SymbolsResponseData)) :
    Except String SymbolDirectory := do
  let symbols ← response.mapError ("failed to query symbols from Nado: " ++ ·)
  let directory := symbols.foldl addSymbol {}
  let list := dedupByKey SymbolInfo.symbol (sortByKey SymbolInfo.symbol directory.symbols)
  if list.isEmpty then throw "no symbols returned from Nado"
  return { directory with symbols := list }

end Symbols
