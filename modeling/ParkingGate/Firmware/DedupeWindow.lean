-- SUMMARY: The dedupe cache holds exactly the last twenty requests the relay was pulsed for.
import ParkingGate.Firmware.CommandHandler

/-!
# The dedupe window

The cache is written only after a pulse and only for a request it did not hold. So the
ring always holds the window of the last `dedupCacheSize` pulsed requests, and no
request is pulsed for again while it is in that window. The second fact makes the
entries of the window distinct, which is why the window is exact.
-/

namespace Firmware

open Config

/-- The cache answers for exactly the last `dedupCacheSize` pulses, which were for
    distinct requests, and a request is pulsed for again only after that many others. -/
structure ExactDedupeWindow (d : Device) : Prop where
  wasProcessed_iff : ∀ requestId, d.gate.wasProcessed (some requestId) = true ↔
    requestId ∈ d.pulsedIds.rtake dedupCacheSize
  nodup : (d.pulsedIds.rtake dedupCacheSize).Nodup
  between : ∀ before requestId mid after,
    d.pulsedIds = before ++ requestId :: (mid ++ requestId :: after) →
      dedupCacheSize ≤ (mid.filter (· ≠ requestId)).length

/-- What the handler maintains of the cache. -/
structure DedupeInv (d : Device) : Prop where
  contents : d.gate.cache.contents = d.pulsedIds.rtake dedupCacheSize
  filling : d.gate.cache.Filling
  spaced : History.Spaced dedupCacheSize d.pulsedIds
  nonempty : ∀ requestId ∈ d.pulsedIds, requestId.isEmpty = false

namespace DedupeInv

theorem boot (bootedAt : Nat) : DedupeInv (Device.boot bootedAt) where
  contents := GateControl.init_contents
  filling := GateControl.init_filling
  spaced := History.spaced_nil _
  nonempty := by simp [Device.boot, Device.pulsedIds]

/-- The invariant only depends on the gate's cache and the pulsed requests. -/
private theorem congr {d d' : Device} (h : DedupeInv d) (hgate : d'.gate.cache = d.gate.cache)
    (hids : d'.pulsedIds = d.pulsedIds) : DedupeInv d' where
  contents := by rw [hgate, hids]; exact h.contents
  filling := by rw [hgate]; exact h.filling
  spaced := by rw [hids]; exact h.spaced
  nonempty := by rw [hids]; exact h.nonempty

theorem wasProcessed_iff {d : Device} (h : DedupeInv d) (requestId : CString) :
    d.gate.wasProcessed (some requestId) = true ↔
      requestId ∈ d.pulsedIds.rtake dedupCacheSize := by
  cases hempty : requestId.isEmpty with
  | true =>
    -- The empty id is never reported and never in the history.
    have hnot : requestId ∉ d.pulsedIds.rtake dedupCacheSize := fun hmem => by
      have := h.nonempty requestId (List.mem_of_mem_drop hmem)
      simp [hempty] at this
    simp [GateControl.wasProcessed_empty hempty, hnot]
  | false =>
    rw [GateControl.wasProcessed_iff h.filling hempty, h.contents]

/-- Accepting a fresh command slides the window by one. -/
private theorem accept {d : Device} (h : DedupeInv d) {requestId : CString} {nowMs : UInt32}
    {now : Nat} (hempty : requestId.isEmpty = false) (hlen : requestId.bytes.length ≤ 36)
    (miss : d.gate.wasProcessed (some requestId) = false) :
    DedupeInv {
      gate := (d.gate.recordOpen nowMs).markProcessed (some requestId)
      clock := now
      pulses := d.pulses ++ [(requestId, now)] } := by
  have hcache : ((d.gate.recordOpen nowMs).markProcessed (some requestId)).cache =
      d.gate.cache.push requestId := by
    rw [GateControl.markProcessed_cache hempty, CString.strncpy_of_length_le hlen,
      GateControl.recordOpen_cache]
  have hfresh : requestId ∉ d.pulsedIds.rtake dedupCacheSize := fun hmem => by
    simp [(h.wasProcessed_iff requestId).mpr hmem] at miss
  have hids : (d.pulses ++ [(requestId, now)]).map (·.1) = d.pulsedIds ++ [requestId] := by
    simp [Device.pulsedIds]
  constructor
  case contents =>
    rw [Device.pulsedIds, hids, hcache, RingBuffer.contents_push, h.contents,
      History.rtake_append_singleton]
  case filling => rw [hcache]; exact h.filling.push requestId
  case spaced => rw [Device.pulsedIds, hids]; exact h.spaced.snoc hfresh
  case nonempty =>
    rw [Device.pulsedIds, hids]
    intro x hx
    rcases List.mem_append.mp hx with hx | hx
    · exact h.nonempty x hx
    · rw [List.mem_singleton.mp hx]; exact hempty

theorem step {lib : ArduinoJson} {d d' : Device} {m : Delivery} (h : DedupeInv d)
    (hstep : Device.step lib d m = some d') : DedupeInv d' := by
  rcases Device.step_cases hstep with ⟨hgate, -, hpulses⟩ | ⟨cmd, hcmd, miss, -, rfl⟩
  · exact h.congr (by rw [hgate]) (by rw [Device.pulsedIds, hpulses, Device.pulsedIds])
  · exact h.accept hcmd.nonempty (Protocol.length_requestId_le hcmd.parsed) miss

theorem exact_window {d : Device} (h : DedupeInv d) : ExactDedupeWindow d where
  wasProcessed_iff := h.wasProcessed_iff
  nodup := h.spaced.nodup_rtake
  between _ _ _ _ heq := History.Spaced.between (heq ▸ h.spaced)

end DedupeInv

/-- Whatever messages the handler gets and whenever it gets them, the dedupe window is
    exact in every state since `GateControl::init`. -/
theorem dedupe_window_exact (lib : ArduinoJson) (bootedAt : Nat) (ms : List Delivery) :
    Trace.AllStates (Device.step lib) ExactDedupeWindow (Device.boot bootedAt) ms := by
  have hinv : Trace.AllStates (Device.step lib) DedupeInv (Device.boot bootedAt) ms :=
    Trace.allStates_iff.mpr fun _ _ _ hex =>
      Trace.exec_invariant (fun _ _ _ h hstep => h.step hstep) (DedupeInv.boot bootedAt) hex
  exact hinv.mono fun _ h => h.exact_window

end Firmware
