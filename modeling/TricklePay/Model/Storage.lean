import TricklePay.Model.Host
import Mathlib.Logic.Function.Basic

/-!
# Persistent storage and time-to-live management

The helpers of `storage.rs`. Which helper refreshes which entry is part of what
they do: `getStream` and `setStream` refresh the stream's entry, the readonly
helpers refresh nothing, and the counter's entry is refreshed explicitly.
-/

namespace TricklePay

variable {Address : Type} [DecidableEq Address]

/-- Number of ledgers an entry lives before it must be bumped. -/
def entryTtl : ℕ := 518400

/-- An accessed entry with fewer ledgers left than this is extended. -/
def bumpThreshold : ℕ := 103680

/-- Read the next stream id, defaulting to zero on a fresh contract. -/
def streamCount : Host Address UInt64 := do return (← get).world.streamCount.getD 0

def setStreamCount (count : UInt64) : Host Address Unit :=
  modifyWorld fun w => { w with streamCount := some count }

def extendInstanceTtl (env : Env Address) : Host Address Unit :=
  modifyWorld (World.extendTtl env .streamCount bumpThreshold entryTtl)

/-- Look up a stream by id, if one exists. -/
def getStream (env : Env Address) (id : UInt64) : Host Address (Option (Stream Address)) := do
  let stream := (← get).world.streams id
  if stream.isSome then
    modifyWorld (World.extendTtl env (.stream id) bumpThreshold entryTtl)
  return stream

/-- Read a stream without extending its persistent-storage TTL. -/
def getStreamReadonly (id : UInt64) : Host Address (Option (Stream Address)) := do
  return (← get).world.streams id

def hasStream (id : UInt64) : Host Address Bool := do
  return ((← get).world.streams id).isSome

/-- Write a stream and refresh its time to live. -/
def setStream (env : Env Address) (id : UInt64) (stream : Stream Address) : Host Address Unit := do
  modifyWorld (World.setStream env id stream)
  modifyWorld (World.extendTtl env (.stream id) bumpThreshold entryTtl)

end TricklePay
