import Thornado.Lib.Registry
import Thornado.Orderbook.Market
import Thornado.Symbols.Directory

/-!
# The registry of markets

`ensure_market` of `gateway/orderbook/src/market.rs`: a market is registered and its worker
spawned, with nothing in between that could fail.
-/

namespace Orderbook

open Rust Symbols

/-- A `Supervisor`'s configuration and symbol directory. -/
structure Supervisor where
  depth : Nat
  directory : SymbolDirectory

variable [UnicodeCase] (F : Type)

/-- The handle `ensure_market` creates if none is registered under the name. -/
def Supervisor.newMarket (supervisor : Supervisor) (symbol : String) : Except String (Market F) :=
  match supervisor.directory.lookup.lookup (normalizeSymbol symbol) with
  | none => throw ("unknown symbol '" ++ symbol ++ "'")
  | some productId =>
    return { symbol := normalizeSymbol symbol, productId := productId, depth := supervisor.depth }

/-- `ensure_market`; unlike `ensure_series` it looks the registry up before the directory. -/
def ensureMarket (supervisor : Supervisor) :
    Registry.Service String String (Market F) String where
  key := normalizeSymbol
  precheck _ := .ok ()
  make := supervisor.newMarket F
  boots := false
  guarded := false

end Orderbook
