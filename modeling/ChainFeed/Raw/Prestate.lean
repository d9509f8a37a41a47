import ChainFeed.Json.Record

/-!
# Snapshots of the prestate tracer

For one transaction the tracer lists accounts before and after.  The second
snapshot holds only what changed.
-/

namespace ChainFeed.Raw

open Json

/-- What a snapshot says about one account. -/
structure Account where
  balance : Option Quantity
  code : Option Bytes
  nonce : Option UInt64
  storage : Option (Table 32 Hash)
  deriving DecidableEq

/-- An account about which nothing is said. -/
def Account.empty : Account := ⟨none, none, none, none⟩

/-- Reads an account. -/
def Account.ofJson? : Json → Option Account :=
  record do
    let balance ← optional "balance" quantity?
    let code ← optional "code" bytes?
    let nonce ← optional "nonce" word64?
    let storage ← optional "storage" (table? word?)
    pure { balance, code, nonce, storage }

/-- The accounts before and after a transaction. -/
structure Snapshots where
  pre : Table 20 Account
  post : Table 20 Account
  deriving DecidableEq

/-- Reads a pair of snapshots. -/
def Snapshots.ofJson? : Json → Option Snapshots :=
  record do
    let pre ← required "pre" (table? Account.ofJson?)
    let post ← required "post" (table? Account.ofJson?)
    pure { pre, post }

/-- The snapshots of one transaction. -/
structure PrestateResult where
  result : Snapshots
  transactionHash : Option Hash
  deriving DecidableEq

/-- Reads the snapshots of one transaction. -/
def PrestateResult.ofJson? : Json → Option PrestateResult :=
  record do
    let result ← required "result" Snapshots.ofJson?
    let transactionHash ← optional "txHash" word?
    pure { result, transactionHash }

end ChainFeed.Raw
