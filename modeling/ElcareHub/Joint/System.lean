import ElcareHub.Collections.NormalNFT721
import ElcareHub.Marketplace.Contract

/-!
# The marketplace and a NormalNFT721 collection

The marketplace's invocations of one collection are answered by the collection contract itself; all
other collections stay arbitrary. A joint run interleaves calls of the marketplace, invocations of the
collection by others, and changes the two contracts have no part in.

Contracts do not sign. The marketplace authorises exactly the invocations it makes itself, so that no
invocation by others carries its authorisation.
-/

namespace ElcareHub.Joint

open Marketplace Call

/-- The surroundings of the marketplace: the current ledger, the collection and all the others. -/
structure Chain (D : Type) where
  timestamp : Nat
  sequence : Nat
  nft : NormalNFT721.State
  others : D

variable {D : Type}

/-- The ledger an invocation by `caller` runs in: the caller has authorised it. -/
def Chain.env (c : Chain D) (caller : Address) : Env where
  timestamp := c.timestamp
  sequence := c.sequence
  auth a := decide (a = caller)
  tokenRefuses _ _ _ _ := false

/-- Invoke the collection: the result and the surroundings after it, or nothing if it fails. -/
def Chain.invoke {α : Type} (c : Chain D) (tx : NormalNFT721.Tx α) : Option (α × Chain D) :=
  match tx c.nft with
  | .ok (a, nft) => some (a, { c with nft })
  | .error _ => none

/-- The result of an invocation of another collection. -/
def Chain.elsewhere {α : Type} (c : Chain D) (r : Option (α × D)) : Option (α × Chain D) :=
  r.map fun p => (p.1, { c with others := p.2 })

/-- The marketplace of `base`, with the collection deployed at `address`. The collection has no batch
transfer. -/
def host (base : Host D) (address : Address) : Host (Chain D) where
  self := base.self
  ownerOf c collection tokenId :=
    if collection = address then c.invoke (NormalNFT721.ownerOf tokenId)
    else c.elsewhere (base.ownerOf c.others collection tokenId)
  transferFrom c collection spender src dst tokenId :=
    if collection = address then
      (c.invoke (NormalNFT721.transferFrom (c.env base.self) spender src dst tokenId)).map Prod.snd
    else
      (base.transferFrom c.others collection spender src dst tokenId).map
        fun others => { c with others }
  batchTransferFrom c collection operator src dst tokenId amount :=
    if collection = address then none
    else
      (base.batchTransferFrom c.others collection operator src dst tokenId amount).map
        fun others => { c with others }
  royaltyInfo c collection :=
    if collection = address then c.invoke NormalNFT721.royaltyInfo
    else c.elsewhere (base.royaltyInfo c.others collection)
  contractType c collection :=
    if collection = address then some (NormalNFT721.contractType, c)
    else c.elsewhere (base.contractType c.others collection)

/-! ### Runs -/

/-- One step of the two contracts; `self` is the address of the marketplace. -/
inductive Step (self : Address) (D : Type)
  | market (env : Env) (op : Marketplace.Op)
  | collection (env : Env) (op : NormalNFT721.Op) (hself : env.auth self = false)
  | others (others : D) (balances : Address × Address → Int)

/-- The marketplace's call runs in the ledger of `env`. -/
def atLedger (w : World (Chain D)) (env : Env) : World (Chain D) :=
  { w with
    collections := { w.collections with timestamp := env.timestamp, sequence := env.sequence } }

def step (base : Host D) (address : Address) (w : World (Chain D)) :
    Step base.self D → World (Chain D)
  | .market env op => Marketplace.step (host base address) (atLedger w env) (.call env op)
  | .collection env op _ =>
    { w with
      collections := { w.collections with nft := NormalNFT721.step env w.collections.nft op } }
  | .others others balances =>
    { w with collections := { w.collections with others }, balances }

/-- Both contracts newly deployed. -/
def fresh (balances : Address × Address → Int) (others : D) : World (Chain D) :=
  .fresh balances ⟨0, 0, .fresh, others⟩

/-- The state after a run of the two newly deployed contracts. -/
def run (base : Host D) (address : Address) (balances : Address × Address → Int) (others : D)
    (steps : List (Step base.self D)) : World (Chain D) :=
  Run.exec (step base address) (fresh balances others) steps

/-! ### Joint runs are runs of the marketplace -/

variable {base : Host D} {address : Address} {w : World (Chain D)}

/-- What the marketplace does not do itself is a change of its surroundings. -/
theorem reachable_step (h : Reachable (host base address) w) (s : Step base.self D) :
    Reachable (host base address) (step base address w s) := by
  cases s with
  | market env op =>
    exact (h.step (.external { w.collections with
      timestamp := env.timestamp, sequence := env.sequence } w.balances)).step (.call env op)
  | collection env op hself =>
    exact h.step (.external { w.collections with
      nft := NormalNFT721.step env w.collections.nft op } w.balances)
  | others others balances => exact h.step (.external { w.collections with others } balances)

theorem reachable_run (base : Host D) (address : Address) (balances : Address × Address → Int)
    (others : D) (steps : List (Step base.self D)) :
    Reachable (host base address) (run base address balances others steps) :=
  Run.invariant ⟨balances, _, [], rfl⟩ fun _ s hw => reachable_step hw s

end ElcareHub.Joint
