/-
**Failures.**

Everything that can go wrong, as a cause, with its wording in one place.  Every failure has a label,
by which failures are counted, and a message; only a lock that was not granted in time is worth
another try.

Main definitions:

* `Tenancy.StorageFault`, `Tenancy.TransactionFault`, `Tenancy.ConfigFault` — the causes below a
  store, a transaction and a configuration;
* `Tenancy.Failure` — **the failures**;
* `Tenancy.Failure.label`, `Tenancy.Failure.message`, `Tenancy.Failure.isRetryable` — what a host
  sees of a failure.

Main results:

* `Tenancy.Failure.isRetryable_iff` — only a refused lock may be tried again.
-/

import Tenancy.Cache.Kind
import Tenancy.Duration
import Tenancy.Text.Quoted

set_option relaxedAutoImplicit false
set_option autoImplicit false

namespace Tenancy

/-- Why a store could not load or save. -/
inductive StorageFault where
  /-- The file name of a record exceeds what a directory takes. -/
  | nameTooLong
  /-- A value could not be taken to or from its octet form. -/
  | serialization (reason : String)
  /-- What is stored is no record. -/
  | deserialization (reason : String)
  /-- The store refused to act. -/
  | unavailable (reason : String)
deriving DecidableEq, Repr

/-- The wording of a storage fault. -/
def StorageFault.message : StorageFault → String
  | .nameTooLong => "storage io error: File name too long (os error 36)"
  | .serialization reason => s!"serialization error: {reason}"
  | .deserialization reason => s!"deserialization error: {reason}"
  | .unavailable reason => s!"store unavailable: {reason}"

/-- Why a transaction was given up. -/
inductive TransactionFault where
  /-- The ledger under `key` could not be loaded. -/
  | load (key : String) (cause : StorageFault)
  /-- The changed ledger could not be saved under `key`. -/
  | save (key : String) (cause : StorageFault)
  /-- Another reason, stated by a host. -/
  | other (reason : String)
deriving DecidableEq, Repr

/-- The wording of a transaction fault. -/
def TransactionFault.message : TransactionFault → String
  | .load key cause => s!"load of {key} failed: storage error: {cause.message}"
  | .save key cause => s!"save of {key} failed: storage error: {cause.message}"
  | .other reason => reason

/-- Why a configuration is not usable. -/
inductive ConfigFault where
  /-- Keys cannot be split at an empty separator. -/
  | emptySeparator
  /-- A router has no shard at all. -/
  | noShards
  /-- Line `number` of a properties text, trimmed, is a key without a value. -/
  | badLine (number : Nat) (line : String)
  /-- The sign of a kind is not -1, 0 or 1. -/
  | badSign (kind : Cache.Kind) (sign : Int8)
  /-- The key of the ledger is empty. -/
  | emptyKey
  /-- No time is allowed for the lock. -/
  | zeroTimeout
  /-- Slots would start at zero. -/
  | zeroFirst
  /-- The range of slots ends before it begins. -/
  | reversedRange (first last : UInt16)
  /-- Another reason, stated by a host. -/
  | other (reason : String)
deriving DecidableEq, Repr

/-- The wording of a configuration fault. -/
def ConfigFault.message : ConfigFault → String
  | .emptySeparator => "separator must not be empty"
  | .noShards => "shard router needs at least the default shard"
  | .badLine number line => s!"line {number}: expected key=value, got {Text.quoted line}"
  | .badSign kind sign => s!"prefix of {kind.name} must be -1, 0 or 1, got {sign.toInt}"
  | .emptyKey => "generator key must not be empty"
  | .zeroTimeout => "lock timeout must be positive"
  | .zeroFirst => "first mux id must be at least 1"
  | .reversedRange first last =>
      s!"first mux id {first.toNat} exceeds max mux id {last.toNat}"
  | .other reason => reason

/-- **What can go wrong.** -/
inductive Failure where
  /-- No shard is registered under the name. -/
  | shardNotFound (name : String)
  /-- The lock on the resource was not granted in time. -/
  | lockUnavailable (resource : String) (waited : Duration)
  /-- A transaction was given up, and what it would have changed is unchanged. -/
  | transactionFailed (fault : TransactionFault)
  /-- The tenant holds no slot. -/
  | tenantNotAllocated (tenant : String)
  /-- The mux id of a cache does not fit in 16 bits. -/
  | muxIdOverflow (slot : UInt16) (sign offset : Int8)
  /-- Every slot up to the last is in use. -/
  | slotsExhausted (last : UInt16)
  /-- Two kinds have one mux id at a slot. -/
  | muxIdCollision (first second : Cache.Kind) (slot : UInt16) (muxId : Int16)
  /-- The registry does not know the type. -/
  | unknownType (name : String)
  /-- A store failed. -/
  | storage (fault : StorageFault)
  /-- A configuration is not usable. -/
  | config (fault : ConfigFault)
  /-- A limit inside the program was met. -/
  | internal (reason : String)
deriving DecidableEq, Repr

namespace Failure

/-- The label under which a failure is counted. -/
def label : Failure → String
  | .shardNotFound _ => "shard_not_found"
  | .lockUnavailable _ _ => "lock_unavailable"
  | .transactionFailed _ => "transaction_failed"
  | .tenantNotAllocated _ => "tenant_not_allocated"
  | .muxIdOverflow _ _ _ => "mux_id_overflow"
  | .slotsExhausted _ => "mux_id_space_exhausted"
  | .muxIdCollision _ _ _ _ => "mux_id_collision"
  | .unknownType _ => "unknown_type"
  | .storage _ => "storage"
  | .config _ => "config"
  | .internal _ => "internal"

/-- **The wording of a failure.** -/
def message : Failure → String
  | .shardNotFound name => s!"shard not found: {Text.quoted name}"
  | .lockUnavailable resource waited =>
      s!"lock unavailable on {resource} after {waited.render}"
  | .transactionFailed fault => s!"transaction failed: {fault.message}"
  | .tenantNotAllocated tenant => s!"tenant not allocated: {tenant}"
  | .muxIdOverflow slot sign offset =>
      s!"mux id overflow: tenant mux id {slot.toNat}, prefix {sign.toInt}, offset {offset.toInt}"
  | .slotsExhausted last => s!"mux id space exhausted: max {last.toNat}"
  | .muxIdCollision first second slot muxId =>
      s!"mux id collision: {first.name} and {second.name} both yield {muxId.toInt} " ++
        s!"for tenant mux id {slot.toNat}"
  | .unknownType name => s!"unknown type: {name}"
  | .storage fault => s!"storage error: {fault.message}"
  | .config fault => s!"config error: {fault.message}"
  | .internal reason => s!"internal error: {reason}"

/-- Whether another try may succeed: only waiting for a lock is a matter of time. -/
def isRetryable : Failure → Bool
  | .lockUnavailable _ _ => true
  | _ => false

theorem isRetryable_iff {f : Failure} :
    f.isRetryable = true ↔ ∃ resource waited, f = .lockUnavailable resource waited := by
  cases f <;> simp [isRetryable]

end Failure

end Tenancy
