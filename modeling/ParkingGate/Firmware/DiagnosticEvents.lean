-- SUMMARY: The events that `main.ino` records in the diagnostic log: ten of them in a row always fit into the document of a batch.
import ParkingGate.Firmware.DiagnosticQueue
import ParkingGate.Firmware.PayloadSize

/-!
# The recorded events

A document of 1024 bytes does not hold every batch of ten entries that the log can hold. It
holds those that the firmware records. The names of events and most messages are stored once
for a whole batch, and the one event with a long message of its own, `mqtt_stuck`, always has
a `ppp_rebuild` behind it whose texts are shared.

The bound is amortised: a shared text has an allowance, which is spent when it first occurs,
and what it takes beyond that is charged to the entries. With 83 bytes of allowances an entry
comes to at most 87 bytes on average, which makes 1024 for ten.
-/

namespace Firmware

open Config

/-! ## Distinct items -/

section Allowance

variable {α : Type} [DecidableEq α] {weight allowance : α → Nat}

theorem sum_toFinset_le (f : α → Nat) (l : List α) : ∑ x ∈ l.toFinset, f x ≤ (l.map f).sum := by
  induction l with
  | nil => exact Nat.le_refl _
  | cons x l ih =>
    rw [List.toFinset_cons, List.map_cons, List.sum_cons]
    by_cases hx : x ∈ l.toFinset
    · rw [Finset.insert_eq_of_mem hx]
      exact ih.trans (Nat.le_add_left _ _)
    · rw [Finset.sum_insert hx]
      exact Nat.add_le_add_left ih _

/-- Distinct items weigh at most what is allowed once, and for each occurrence what it weighs
    beyond its allowance. -/
theorem sum_distinct_le {shared : Finset α} (hshared : ∀ x, allowance x ≠ 0 → x ∈ shared) (l : List α) :
    ∑ x ∈ l.toFinset, weight x ≤
      ∑ x ∈ shared, allowance x + (l.map fun x => weight x - allowance x).sum :=
  calc ∑ x ∈ l.toFinset, weight x
      ≤ ∑ x ∈ l.toFinset, (allowance x + (weight x - allowance x)) :=
        Finset.sum_le_sum fun x _ => by omega
    _ = ∑ x ∈ l.toFinset, allowance x + ∑ x ∈ l.toFinset, (weight x - allowance x) :=
        Finset.sum_add_distrib
    _ ≤ _ := by
        apply Nat.add_le_add
        · exact Finset.sum_le_sum_of_ne_zero fun x _ hx => hshared x hx
        · exact sum_toFinset_le _ l

end Allowance

/-! ## Events -/

/-- The calls of `diagnosticLog.append` in `main.ino`, with what goes into their messages. -/
inductive DiagnosticEvent where
  /-- Another power cycle after so many. -/
  | initRetry (retries : Fin modemInitMaxRetries)
  | backoff
  | modemReset (n : UInt8)
  | mqttStuck (ms : UInt32)
  /-- The rebuild after `mqttStuck`. -/
  | pppRebuildStuck
  | pppRebuild (n : UInt8)
  | connectionRestored
  | connectionLost
  | oobReboot
  | oobPppRebuild
  deriving DecidableEq

namespace DiagnosticEvent

/-- `snprintf(msg, size, ...)`, of an ASCII text. -/
def snprintf (size : Nat) (text : String) : CString := (CString.ofAscii text).strncpy (size - 1)

def level : DiagnosticEvent → DiagnosticLevel
  | connectionRestored => .info
  | initRetry _ | backoff | modemReset _ | mqttStuck _ | pppRebuildStuck | pppRebuild _ | connectionLost
  | oobReboot | oobPppRebuild => .warn

def event : DiagnosticEvent → String
  | initRetry _                  => "init_retry"
  | backoff                      => "backoff"
  | modemReset _                 => "modem_reset"
  | mqttStuck _                  => "mqtt_stuck"
  | pppRebuildStuck | pppRebuild _ => "ppp_rebuild"
  | connectionRestored           => "connection_restored"
  | connectionLost               => "connection_lost"
  | oobReboot                    => "oob_reboot"
  | oobPppRebuild                => "oob_ppp_rebuild"

/-- `none` is the null pointer. -/
def message : DiagnosticEvent → Option CString
  | initRetry retries => some (snprintf 12 ("retry=" ++ toString (retries.val + 1)))
  | backoff           => some (snprintf 16 "backoff=60000")
  | modemReset n      => some (snprintf 8 ("n=" ++ toString n.toNat))
  | mqttStuck ms      => some (snprintf 16 ("ms=" ++ toString ms.toNat))
  | pppRebuildStuck   => some (CString.ofAscii "reason=mqtt_stuck")
  | pppRebuild n      => some (snprintf 8 ("n=" ++ toString n.toNat))
  | connectionRestored | connectionLost | oobReboot | oobPppRebuild => none

/-- The entry that `append` makes of it. -/
def entry (millis : UInt32) (e : DiagnosticEvent) : DiagnosticEntry :=
  .recorded millis e.level (CString.ofAscii e.event) e.message

/-- What the document of a batch copies for the event. -/
def texts (e : DiagnosticEvent) : List CString := CString.ofAscii e.event :: e.message.toList

theorem length_ofAscii_le (s : String) : (CString.ofAscii s).bytes.length ≤ s.length := by
  apply (List.takeWhile_sublist _).length_le.trans
  rw [ascii, List.length_map, String.length_toList]

theorem length_snprintf_le (size : Nat) {text : String} {k : Nat} (h : text.length ≤ k) :
    (snprintf size text).bytes.length ≤ k := by
  rw [snprintf, CString.strncpy, List.length_take]
  exact (Nat.min_le_right _ _).trans ((length_ofAscii_le text).trans h)

theorem length_toString_le {n k : Nat} (h : n < 10 ^ k) (hk : 0 < k) : (toString n).length ≤ k :=
  (Nat.length_repr_le_iff hk).mpr h

/-- The messages that no two entries share are short. -/
theorem length_count_le (n : UInt8) : ("n=" ++ toString n.toNat).length ≤ 5 := by
  have hdigits := length_toString_le (n := n.toNat) (k := 3) (by have := n.toNat_lt; omega) (by decide)
  rw [String.length_append]
  have : "n=".length = 2 := by decide
  omega

theorem length_ms_le (ms : UInt32) : ("ms=" ++ toString ms.toNat).length ≤ 13 := by
  have hdigits := length_toString_le (n := ms.toNat) (k := 10) (by have := ms.toNat_lt; omega) (by decide)
  rw [String.length_append]
  have : "ms=".length = 3 := by decide
  omega

/-- A message that is passed is not empty. -/
theorem message_isEmpty {e : DiagnosticEvent} {m : CString} (h : e.message = some m) :
    m.isEmpty = false := by
  have hsnprintf : ∀ (size : Nat) (c : Char) (cs : List Char) (text : String), text.toList = c :: cs →
      UInt8.ofNat c.toNat ≠ 0 → (snprintf (size + 2) text).isEmpty = false := by
    intro size c cs text htext hc
    simp [snprintf, CString.ofAscii, CString.ofBytes, CString.strncpy, CString.isEmpty, ascii, htext, hc]
  cases e with
  | connectionRestored | connectionLost | oobReboot | oobPppRebuild => cases h
  | initRetry | modemReset | mqttStuck | pppRebuild =>
    obtain rfl := Option.some.inj h
    apply hsnprintf _ _ _ _ String.toList_append
    decide
  | backoff | pppRebuildStuck =>
    obtain rfl := Option.some.inj h
    decide

/-! ## Entries -/

theorem length_event_le (e : DiagnosticEvent) : (CString.ofAscii e.event).bytes.length ≤ 19 := by
  apply (length_ofAscii_le e.event).trans
  cases e <;> (simp only [event]; decide)

theorem length_message_le {e : DiagnosticEvent} {m : CString} (h : e.message = some m) :
    m.bytes.length ≤ 31 := by
  cases e with
  | connectionRestored | connectionLost | oobReboot | oobPppRebuild => cases h
  | pppRebuildStuck =>
    obtain rfl := Option.some.inj h
    decide
  | initRetry | modemReset | mqttStuck | pppRebuild | backoff =>
    obtain rfl := Option.some.inj h
    apply (List.length_take_le _ _).trans
    decide

@[simp] theorem entry_event (millis : UInt32) (e : DiagnosticEvent) :
    (e.entry millis).event = CString.ofAscii e.event :=
  CString.strncpy_of_length_le e.length_event_le

theorem entry_message (millis : UInt32) (e : DiagnosticEvent) :
    (e.entry millis).message = e.message.getD CString.empty := by
  cases h : e.message with
  | none => simp [entry, DiagnosticEntry.recorded, h]; rfl
  | some m =>
    have hm := CString.strncpy_of_length_le (length_message_le h)
    simp [entry, DiagnosticEntry.recorded, h, hm]

theorem entry_isEmpty (millis : UInt32) (e : DiagnosticEvent) :
    (e.entry millis).message.isEmpty = e.message.isNone := by
  rw [entry_message]
  cases h : e.message with
  | none => rfl
  | some m => exact message_isEmpty h

theorem entryTexts_entry (millis : UInt32) (e : DiagnosticEvent) :
    DiagnosticPayload.entryTexts (e.entry millis) = e.texts := by
  rw [DiagnosticPayload.entryTexts, entry_isEmpty, entry_event, entry_message, texts]
  cases h : e.message <;> rfl

theorem entrySlots_entry (millis : UInt32) (e : DiagnosticEvent) :
    DiagnosticPayload.entrySlots (e.entry millis) = if e.message.isNone then 4 else 5 := by
  rw [DiagnosticPayload.entrySlots, entry_isEmpty]

/-! ## What an event takes -/

/-- The texts that entries share, and what is allowed for each. -/
def allowances : List (String × Nat) :=
  [("init_retry", 11), ("retry=1", 1), ("retry=2", 1), ("retry=3", 1), ("retry=4", 1), ("retry=5", 1),
    ("backoff", 8), ("backoff=60000", 7), ("modem_reset", 11), ("mqtt_stuck", 11), ("ppp_rebuild", 12),
    ("reason=mqtt_stuck", 18)]

def allowance (t : CString) : Nat :=
  ((allowances.find? fun a => CString.ofAscii a.1 = t).map (·.2)).getD 0

def shared : Finset CString := (allowances.map fun a => CString.ofAscii a.1).toFinset

theorem mem_shared {t : CString} (h : allowance t ≠ 0) : t ∈ shared := by
  unfold allowance at h
  cases hfind : allowances.find? fun a => CString.ofAscii a.1 = t with
  | none =>
    rw [hfind] at h
    exact absurd rfl h
  | some a =>
    have ha := List.find?_some hfind
    exact List.mem_toFinset.mpr (List.mem_map.mpr
      ⟨a, List.mem_of_find?_eq_some hfind, of_decide_eq_true ha⟩)

theorem sum_shared : ∑ t ∈ shared, allowance t = 83 := by decide +kernel

/-- What the event takes beyond the allowances, with its slots. -/
def charge (e : DiagnosticEvent) : Nat :=
  slotSize * (if e.message.isNone then 4 else 5) +
    (e.texts.map fun t => t.bytes.length + 1 - allowance t).sum

def isStuck : DiagnosticEvent → Bool
  | mqttStuck _ => true
  | initRetry _ | backoff | modemReset _ | pppRebuildStuck | pppRebuild _ | connectionRestored
  | connectionLost | oobReboot | oobPppRebuild => false

def isStuckRebuild : DiagnosticEvent → Bool
  | pppRebuildStuck => true
  | initRetry _ | backoff | modemReset _ | mqttStuck _ | pppRebuild _ | connectionRestored
  | connectionLost | oobReboot | oobPppRebuild => false

theorem charge_of_message {e : DiagnosticEvent} {m : CString} (h : e.message = some m) {k : Nat}
    (hk : m.bytes.length ≤ k) :
    e.charge ≤ 81 + k +
      ((CString.ofAscii e.event).bytes.length + 1 - allowance (CString.ofAscii e.event)) := by
  simp only [charge, texts, h, slotSize, Option.isNone_some, Option.toList_some, List.map_cons,
    List.map_nil, List.sum_cons, List.sum_nil, Bool.false_eq_true, if_false]
  omega

/-- 87 bytes, but for `mqtt_stuck` and its `ppp_rebuild`, which make up for each other. -/
theorem charge_le (e : DiagnosticEvent) :
    e.charge + (if e.isStuckRebuild then 7 else 0) ≤ 87 + (if e.isStuck then 7 else 0) := by
  cases e with
  | initRetry retries =>
    revert retries
    decide +kernel
  | modemReset n =>
    have hcharge := charge_of_message (e := modemReset n) rfl (length_snprintf_le 8 (length_count_le n))
    have hname : (CString.ofAscii (modemReset n).event).bytes.length + 1 -
        allowance (CString.ofAscii (modemReset n).event) = 1 := by
      simp only [event]
      decide +kernel
    simp only [isStuck, isStuckRebuild, Bool.false_eq_true, if_false]
    omega
  | pppRebuild n =>
    have hcharge := charge_of_message (e := pppRebuild n) rfl (length_snprintf_le 8 (length_count_le n))
    have hname : (CString.ofAscii (pppRebuild n).event).bytes.length + 1 -
        allowance (CString.ofAscii (pppRebuild n).event) = 0 := by
      simp only [event]
      decide +kernel
    simp only [isStuck, isStuckRebuild, Bool.false_eq_true, if_false]
    omega
  | mqttStuck ms =>
    have hcharge := charge_of_message (e := mqttStuck ms) rfl (length_snprintf_le 16 (length_ms_le ms))
    have hname : (CString.ofAscii (mqttStuck ms).event).bytes.length + 1 -
        allowance (CString.ofAscii (mqttStuck ms).event) = 0 := by
      simp only [event]
      decide +kernel
    simp only [isStuck, isStuckRebuild, Bool.false_eq_true, if_false, if_true]
    omega
  | backoff | pppRebuildStuck | connectionRestored | connectionLost | oobReboot | oobPppRebuild =>
    decide +kernel

/-! ## Batches -/

/-- Every `mqtt_stuck` has its `ppp_rebuild` behind it. -/
def Paired : List DiagnosticEvent → Prop
  | []      => True
  | e :: es => (e.isStuck → es.head? = some pppRebuildStuck) ∧ Paired es

theorem Paired.append {es fs : List DiagnosticEvent} (h : Paired es) (h' : Paired fs) :
    Paired (es ++ fs) := by
  induction es with
  | nil => exact h'
  | cons e es ih =>
    refine ⟨fun hstuck => ?_, ih h.2⟩
    have hhead := h.1 hstuck
    cases es with
    | nil => cases hhead
    | cons e' es => exact hhead

theorem Paired.drop {es : List DiagnosticEvent} (h : Paired es) (n : Nat) : Paired (es.drop n) := by
  induction es generalizing n with
  | nil => simpa using h
  | cons e es ih =>
    cases n with
    | zero => exact h
    | succ n => exact ih h.2 n

/-- Only the last event of a front can lack what makes up for it. -/
theorem Paired.count_take {es : List DiagnosticEvent} (h : Paired es) :
    (∀ n, (es.take n).countP isStuck ≤ (es.take n).countP isStuckRebuild + 1) ∧
      (es.head? = some pppRebuildStuck →
        ∀ n, (es.take (n + 1)).countP isStuck ≤ (es.take (n + 1)).countP isStuckRebuild) := by
  induction es with
  | nil => simp
  | cons e es ih =>
    obtain ⟨hany, hrebuild⟩ := ih h.2
    refine ⟨fun n => ?_, fun hhead n => ?_⟩
    · cases n with
      | zero => simp
      | succ n =>
        rw [List.take_succ_cons, List.countP_cons, List.countP_cons]
        cases hstuck : e.isStuck with
        | false =>
          have := hany n
          simp only [Bool.false_eq_true, if_false]
          omega
        | true =>
          cases n with
          | zero => simp
          | succ n =>
            have := hrebuild (h.1 hstuck) n
            simp only [if_true]
            omega
    · obtain rfl := Option.some.inj hhead
      have := hany n
      simpa [List.countP_cons, isStuck, isStuckRebuild] using this

theorem sum_charge_le (es : List DiagnosticEvent) :
    (es.map charge).sum + 7 * es.countP isStuckRebuild ≤ 87 * es.length + 7 * es.countP isStuck := by
  induction es with
  | nil => exact Nat.le_refl _
  | cons e es ih =>
    have hcharge := e.charge_le
    simp only [List.map_cons, List.sum_cons, List.length_cons, List.countP_cons]
    split at hcharge <;> split at hcharge <;> simp_all <;> omega

/-- Slots and texts of a batch, with the allowances taken off. -/
theorem sum_charge (es : List DiagnosticEvent) :
    slotSize * (es.map fun e => if e.message.isNone then 4 else 5).sum +
        ((es.flatMap texts).map fun t => t.bytes.length + 1 - allowance t).sum =
      (es.map charge).sum := by
  induction es with
  | nil => rfl
  | cons e es ih =>
    rw [List.map_cons, List.sum_cons, List.flatMap_cons, List.map_append, List.sum_append, List.map_cons,
      List.sum_cons, ← ih, charge, Nat.mul_add]
    omega

/-- The entries of recorded events. -/
def entries (es : List (UInt32 × DiagnosticEvent)) : List DiagnosticEntry :=
  es.map fun e => e.2.entry e.1

/-- Ten events in a row take no more than a document has. -/
theorem payloadBytes_le {es : List (UInt32 × DiagnosticEvent)} (h : Paired (es.map (·.2))) {n : Nat}
    (hn : n ≤ 10) : DiagnosticPayload.payloadBytes (entries (es.take n)) ≤ 1024 := by
  have hslots : (entries (es.take n)).map DiagnosticPayload.entrySlots =
      ((es.map (·.2)).take n).map fun e => if e.message.isNone then 4 else 5 := by
    simp only [entries, List.map_take, List.map_map, Function.comp_def, entrySlots_entry]
  have htexts : (entries (es.take n)).flatMap DiagnosticPayload.entryTexts =
      ((es.map (·.2)).take n).flatMap texts := by
    simp only [entries, List.flatMap_map, entryTexts_entry, ← List.map_take]
  have hdistinct : ∑ t ∈ (((es.map (·.2)).take n).flatMap texts).toFinset, (t.bytes.length + 1) ≤
      ∑ t ∈ shared, allowance t +
        ((((es.map (·.2)).take n).flatMap texts).map fun t => t.bytes.length + 1 - allowance t).sum :=
    sum_distinct_le (fun _ => mem_shared) _
  have hsum := sum_charge ((es.map (·.2)).take n)
  have hcharge := sum_charge_le ((es.map (·.2)).take n)
  have hcount := h.count_take.1 n
  have hlen : ((es.map (·.2)).take n).length ≤ 10 := (List.length_take_le n _).trans hn
  rw [sum_shared] at hdistinct
  rw [DiagnosticPayload.payloadBytes, hslots, htexts, Nat.mul_add]
  have : slotSize = 16 := rfl
  omega

end DiagnosticEvent

end Firmware
