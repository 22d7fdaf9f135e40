-- SUMMARY: The cooldown and the dedupe cache of the gate (`gate_control.cpp`), with the ring buffer behind the cache.
import ParkingGate.Base.CString
import ParkingGate.Base.RingBuffer
import ParkingGate.Firmware.Config

/-!
# Gate control

The static state of `GateControl` and its five operations. The index and the count of
the cache are assigned only values in range by the source, which their types record.
-/

namespace Firmware

open Config

structure GateControl where
  /-- Clock reading of the last recorded pulse; `0` also stands for "never opened". -/
  lastOpenAtMs : UInt32
  dedupeCache : Vector CString dedupCacheSize
  dedupeCacheIndex : Fin dedupCacheSize
  dedupeCacheCount : Fin (dedupCacheSize + 1)

namespace GateControl

def init : GateControl where
  lastOpenAtMs := 0
  dedupeCache := Vector.replicate dedupCacheSize CString.empty
  dedupeCacheIndex := 0
  dedupeCacheCount := 0

/-- The verdict and the remaining cooldown (`remainingMs`). -/
def canExecuteNow (g : GateControl) (nowMs : UInt32) : Bool × UInt32 :=
  if g.lastOpenAtMs = 0 then (true, 0)
  else
    -- The difference of two readings, modulo `2^32` like `uint32_t`.
    let elapsed := nowMs - g.lastOpenAtMs
    if elapsed ≥ gateCooldownMs then (true, 0)
    else (false, gateCooldownMs - elapsed)

def recordOpen (g : GateControl) (nowMs : UInt32) : GateControl :=
  { g with lastOpenAtMs := nowMs }

/-- `none` is the null pointer. -/
def wasProcessed (g : GateControl) (requestId : Option CString) : Bool :=
  match requestId with
  | none => false
  | some requestId =>
    if requestId.isEmpty then false
    else
      let entriesToCheck :=
        if g.dedupeCacheCount < dedupCacheSize then g.dedupeCacheCount.val else dedupCacheSize
      (g.dedupeCache.toList.take entriesToCheck).any (· = requestId)

/-- `none` is the null pointer. -/
def markProcessed (g : GateControl) (requestId : Option CString) : GateControl :=
  match requestId with
  | none => g
  | some requestId =>
    if requestId.isEmpty then g
    else
      { g with
        dedupeCache := g.dedupeCache.set g.dedupeCacheIndex (requestId.strncpy 36)
        dedupeCacheIndex := RingBuffer.next g.dedupeCacheIndex
        dedupeCacheCount := RingBuffer.grow g.dedupeCacheCount }

/-! ## The cache as a ring buffer -/

def cache (g : GateControl) : RingBuffer CString dedupCacheSize where
  slots := g.dedupeCache
  head := g.dedupeCacheIndex
  count := g.dedupeCacheCount

@[simp] theorem recordOpen_cache (g : GateControl) (nowMs : UInt32) :
    (g.recordOpen nowMs).cache = g.cache := rfl

@[simp] theorem recordOpen_lastOpenAtMs (g : GateControl) (nowMs : UInt32) :
    (g.recordOpen nowMs).lastOpenAtMs = nowMs := rfl

@[simp] theorem markProcessed_lastOpenAtMs (g : GateControl) (requestId : Option CString) :
    (g.markProcessed requestId).lastOpenAtMs = g.lastOpenAtMs := by
  unfold markProcessed
  split
  · rfl
  · split <;> rfl

theorem markProcessed_cache {g : GateControl} {requestId : CString}
    (h : requestId.isEmpty = false) :
    (g.markProcessed (some requestId)).cache = g.cache.push (requestId.strncpy 36) := by
  simp [markProcessed, h, cache, RingBuffer.push]

@[simp] theorem init_contents : init.cache.contents = [] := by
  simp [← List.length_eq_zero_iff, cache, init]

theorem init_filling : init.cache.Filling := fun _ => rfl

theorem wasProcessed_empty {g : GateControl} {requestId : CString}
    (h : requestId.isEmpty = true) : g.wasProcessed (some requestId) = false := by
  simp [wasProcessed, h]

/-- The scan over the filled slots finds exactly the cached ids. -/
theorem wasProcessed_iff {g : GateControl} (hf : g.cache.Filling) {requestId : CString}
    (h : requestId.isEmpty = false) :
    g.wasProcessed (some requestId) = true ↔ requestId ∈ g.cache.contents := by
  have hcount : (if g.dedupeCacheCount < dedupCacheSize then g.dedupeCacheCount.val
      else dedupCacheSize) = g.cache.count.val := by
    have hle := g.dedupeCacheCount.is_le
    change _ = g.dedupeCacheCount.val
    split <;> omega
  rw [← hf.mem_take_iff]
  simp only [wasProcessed, h, hcount]
  simp [cache]

/-! ## The cooldown -/

theorem canExecuteNow_of_zero {g : GateControl} (h : g.lastOpenAtMs = 0) (nowMs : UInt32) :
    (g.canExecuteNow nowMs).1 = true := by
  simp [canExecuteNow, h]

/-- A pulse allowed after a recorded one comes at least the cooldown later on the
    wrapping clock. -/
theorem cooldown_le_of_canExecuteNow {g : GateControl} {nowMs : UInt32}
    (h : g.lastOpenAtMs ≠ 0) (hexec : (g.canExecuteNow nowMs).1 = true) :
    gateCooldownMs ≤ nowMs - g.lastOpenAtMs := by
  by_contra hlt
  simp [canExecuteNow, h, hlt] at hexec

end GateControl

end Firmware
