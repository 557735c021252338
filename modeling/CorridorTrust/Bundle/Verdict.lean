import CorridorTrust.Bundle.Reason
import CorridorTrust.Json.Printer
import CorridorTrust.Json.Record

namespace CorridorTrust

open Json (Value Tree)

structure Epoch where
  value : UInt64
deriving DecidableEq, Repr

namespace Epoch

def ceiling : UInt64 := 0xFFFFFFFFFFFFFFFF

def first : Epoch := ⟨1⟩

def bump (e : Epoch) : Epoch := if e.value = ceiling then e else ⟨e.value + 1⟩

end Epoch

structure Verdict where
  valid : Bool
  epoch : Epoch
  reason : String
deriving DecidableEq, Repr

namespace Verdict

def accepted (epoch : Epoch) : Verdict := ⟨true, epoch, ""⟩

def rejected (reason : Reason) (epoch : Epoch) : Verdict := ⟨false, epoch, reason.text⟩

def toJson (v : Verdict) : Value :=
  .object (
    [("valid", .bool v.valid), ("revEpoch", .ofNat v.epoch.value.toNat)] ++
    if v.reason = "" then [] else [("reason", .string v.reason)])

def ofTree? (t : Tree) : Option Verdict := do
  let f ← t.fields? ["valid", "revEpoch", "reason"]
  some {
    valid := ← Tree.required Tree.bool? (f "valid")
    epoch := ⟨← Tree.required Tree.word? (f "revEpoch")⟩
    reason := ← Tree.orElse "" Tree.string? (f "reason") }

def read? (bs : Bytes) : Option Verdict := (Tree.read? bs).bind ofTree?

end Verdict

end CorridorTrust
