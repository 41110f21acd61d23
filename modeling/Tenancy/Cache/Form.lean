/-
**The octet form of a kind and its spec.**

The number of the kind in four octets, sign and offset in one octet each, and the types, ascending,
behind their number.  On reading, types may come in any order and repeatedly, and what follows the
form is left alone.

Main definitions:

* `Tenancy.Cache.writeSpec` — **the written form**;
* `Tenancy.Cache.readSpec`, `Tenancy.Cache.decodeSpec` — the reader of the form, and the reading of
  octets that begin with one.
-/

import Tenancy.Cache.Table
import Tenancy.Octets.Field

set_option relaxedAutoImplicit false
set_option autoImplicit false

namespace Tenancy.Cache

open Octets

/-- The octet of a signed number. -/
def writeSigned (n : Int8) : Octets := [n.toUInt8]

/-- **The form of a kind and its spec.** -/
def writeSpec (kind : Kind) (spec : Spec) : Octets :=
  ofWord 4 kind.index ++ writeSigned spec.sign ++ writeSigned spec.offset ++
    ofList ofText spec.types.toList

/-- Takes the number of a kind. -/
def readKind : Reader Kind := do
  let index ← Reader.word 4
  match Kind.ofIndex? index with
  | some kind => pure kind
  | none => throw (.badChoice index Kind.all.length)

/-- Takes a signed number of one octet. -/
def readSigned : Reader Int8 := do
  let n ← Reader.word 1
  pure (UInt8.ofNat n).toInt8

/-- Takes a kind and its spec. -/
def readSpec : Reader (Kind × Spec) := do
  let kind ← readKind
  let sign ← readSigned
  let offset ← readSigned
  let types ← Reader.list Reader.text
  pure (kind, .ofList sign offset types)

/-- Reads octets that begin with the form of a kind and its spec. -/
def decodeSpec (bs : Octets) : Except Malformed (Kind × Spec) := readSpec.read bs

/-- A signed number is taken back. -/
theorem readSigned_writeSigned (n : Int8) (rest : Octets) :
    readSigned (writeSigned n ++ rest) = .ok (n, rest) := by
  have hw := @Reader.word_append 1 [n.toUInt8] rfl rest
  have hn : (UInt8.ofNat (toWord [n.toUInt8])).toInt8 = n := by simp [toWord]
  simp only [readSigned, writeSigned, bind, StateT.bind, hw, Except.bind]
  exact congrArg (fun m => Except.ok (m, rest)) hn

/-- The number of a kind is taken back. -/
theorem readKind_ofWord (kind : Kind) (rest : Octets) :
    readKind (ofWord 4 kind.index ++ rest) = .ok (kind, rest) := by
  have hi : kind.index < wordCount 4 := Nat.lt_trans kind.index_lt (by decide)
  simp only [readKind, bind, StateT.bind, Reader.word_ofWord hi, Except.bind,
    Kind.ofIndex?_index]
  rfl

end Tenancy.Cache
