-- SUMMARY: The diagnostics messages of the device (`mqtt-gate-device.service.ts`): when the good entries of a message are stored in spite of the bad ones.
import Mathlib.Data.List.Forall2
import ParkingGate.Base.JsValue

/-!
# Diagnostics messages

Three checks decide what becomes of an entry: the filter looks at the types of `ts` and
`event`, the conversions to text may throw, and the schema requires a level and an event,
for which mongoose does not take the empty text. The filter leaves out single entries; the
other two fail for the whole document.
-/

namespace Backend

open JsValue

/-- A stored `DiagnosticLogEntry`. -/
structure DiagnosticLogEntry where
  ts : JsNumber
  level : Utf16
  event : Utf16
  message : Option Utf16

/-- A stored `DeviceDiagnosticLog`. -/
structure DeviceDiagnosticLog where
  deviceId : Utf16
  receivedAt : Nat
  sessionId : Option Utf16
  fwVersion : Option Utf16
  entries : List DiagnosticLogEntry

/-- What the handling of a message comes to. -/
inductive DiagnosticsOutcome where
  /-- `Invalid diagnostics message: missing deviceId or entries.` -/
  | invalid
  /-- `Diagnostics message had no valid entries` -/
  | noEntries
  | stored (doc : DeviceDiagnosticLog)
  /-- `Failed to persist device diagnostic log`: something threw. -/
  | failed

namespace Diagnostics

/-- `String(v)`, also for undefined. -/
def stringOf (numbers : NumberText) : Option JsValue → Option Utf16
  | none   => some (utf16 "undefined")
  | some v => v.toText numbers

/-- `v === k || v === name`. -/
def isLevel (k : Nat) (name : String) : Option JsValue → Bool
  | some (.number n) => n.isNat k
  | some (.str t)    => t = utf16 name
  | _                => false

def levelToString (numbers : NumberText) (v : Option JsValue) : Option Utf16 :=
  if isLevel 0 "info" v then some (utf16 "info")
  else if isLevel 1 "warn" v then some (utf16 "warn")
  else if isLevel 2 "error" v then some (utf16 "error")
  else (stringOf numbers v).map (·.take 16)

/-- `v != null ? String(v).slice(0, n) : undefined`; `none` when it throws. -/
def optionalText (numbers : NumberText) (n : Nat) : Option JsValue → Option (Option Utf16)
  | none | some .null => some none
  | some v            => (v.toText numbers).map fun t => some (t.take n)

/-- The filter of the entries. -/
def isEntry (e : JsValue) : Bool :=
  match e.get "ts", e.get "event" with
  | some (.number _), some (.str _) => true
  | _, _                            => false

/-- What is stored for an entry that has passed the filter; `none` when it throws. -/
def toEntry (numbers : NumberText) (e : JsValue) : Option DiagnosticLogEntry :=
  match e.get "ts", e.get "event" with
  | some (.number ts), some (.str event) => do
    let level ← levelToString numbers (e.get "level")
    let message ← optionalText numbers 256 (e.get "message")
    return { ts := ts, level := level.take 16, event := event.take 64, message := message }
  | _, _ => none

/-- The texts that the schema requires are there. -/
def valid (doc : DeviceDiagnosticLog) : Bool :=
  doc.deviceId ≠ [] ∧ ∀ d ∈ doc.entries, d.level ≠ [] ∧ d.event ≠ []

/-- `deviceDiagnosticLogModel.create(doc)`, of a database that takes what the schema lets through. -/
def create (doc : DeviceDiagnosticLog) : DiagnosticsOutcome :=
  if valid doc then .stored doc else .failed

theorem create_eq_stored_iff {d doc : DeviceDiagnosticLog} :
    create d = .stored doc ↔ d = doc ∧ valid d := by
  unfold create
  split
  · rename_i h
    simp [h]
  · rename_i h
    simp [h]

/-- The message as a text is used for its length in the log and is left out: making it of a value
    that was parsed throws only when the stack of the engine is exhausted. -/
def handleDiagnosticsMessage (numbers : NumberText) (now : Nat) (payload : JsValue) :
    DiagnosticsOutcome :=
  match payload with
  | .null => .failed
  | payload =>
    -- The log line converts the device id, whatever it is.
    if stringOf numbers (payload.get "deviceId") = none then .failed
    else
      match payload.get "deviceId", payload.get "entries" with
      | some (.str deviceId), some (.arr entries) =>
        if deviceId = [] then .invalid
        else
          match ((entries.take 100).filter isEntry).mapM (toEntry numbers) with
          | none         => .failed
          | some entries =>
            if entries.length = 0 then .noEntries
            else
              match optionalText numbers 64 (payload.get "sessionId"),
                optionalText numbers 32 (payload.get "fwVersion") with
              | some sessionId, some fwVersion =>
                create {
                  deviceId   := deviceId.take 128
                  receivedAt := now
                  sessionId  := sessionId
                  fwVersion  := fwVersion
                  entries    := entries }
              | _, _ => .failed
      | _, _ => .invalid

/-- The outcome when the database answers so to the insert: one that fails throws. -/
def afterInsert (inserted : Bool) : DiagnosticsOutcome → DiagnosticsOutcome
  | .stored doc => if inserted then .stored doc else .failed
  | .invalid    => .invalid
  | .noEntries  => .noEntries
  | .failed     => .failed

/-! ## What should be kept -/

/-- A number as `ts` and non-empty texts as `level` and `event`. -/
def storable (e : JsValue) : Bool :=
  match e.get "ts", e.get "level", e.get "event" with
  | some (.number _), some (.str level), some (.str event) => level ≠ [] ∧ event ≠ []
  | _, _, _                                                => false

/-- The entry is stored with its own values, the texts cut. -/
structure StoredAs (numbers : NumberText) (e : JsValue) (d : DiagnosticLogEntry) : Prop where
  ts : e.get "ts" = some (.number d.ts)
  level : ∃ t, e.get "level" = some (.str t) ∧ d.level = t.take 16
  event : ∃ t, e.get "event" = some (.str t) ∧ d.event = t.take 64
  noMessage : e.get "message" = none ∨ e.get "message" = some .null → d.message = none
  message : ∀ v, e.get "message" = some v → v ≠ .null →
    ∃ t, v.toText numbers = some t ∧ d.message = some (t.take 256)

/-- If one of the first 100 entries is storable, then a document is stored, and it has all the
    storable ones, in order. -/
def KeepsGood (numbers : NumberText) (now : Nat) (payload : JsValue) (entries : List JsValue) :
    Prop :=
  (∃ e ∈ entries.take 100, storable e) →
    ∃ doc, handleDiagnosticsMessage numbers now payload = .stored doc ∧
      List.SublistForall₂ (StoredAs numbers) ((entries.take 100).filter storable) doc.entries

/-- Neither the conversion nor the schema fails on the entry. -/
structure CleanEntry (e : JsValue) : Prop where
  event : e.get "event" ≠ some (.str [])
  level : ∀ v, e.get "level" = some v → ¬ v.Untextable ∧ ¬ v.Blank
  message : ∀ v, e.get "message" = some v → ¬ v.Untextable

/-- Nothing in the message makes the whole document fail. -/
structure Clean (payload : JsValue) (entries : List JsValue) : Prop where
  sessionId : ∀ v, payload.get "sessionId" = some v → ¬ v.Untextable
  fwVersion : ∀ v, payload.get "fwVersion" = some v → ¬ v.Untextable
  entries : ∀ e ∈ entries.take 100, isEntry e → CleanEntry e

/-! ## The conversions -/

variable (numbers : NumberText)

theorem stringOf_eq_none_iff {v : Option JsValue} :
    stringOf numbers v = none ↔ ∃ w, v = some w ∧ w.Untextable := by
  cases v with
  | none => simp [stringOf]
  | some v => simp [stringOf, toText_eq_none_iff]

theorem stringOf_eq_nil_iff {v : Option JsValue} :
    stringOf numbers v = some [] ↔ ∃ w, v = some w ∧ w.Blank := by
  cases v with
  | none =>
    refine iff_of_false ?_ (by simp)
    simp only [stringOf, Option.some.injEq]
    decide
  | some v => simp [stringOf, toText_eq_nil_iff]

theorem optionalText_some {n : Nat} {v : JsValue} (h : v ≠ .null) :
    optionalText numbers n (some v) = (v.toText numbers).map fun t => some (t.take n) := by
  cases v with
  | null => exact absurd rfl h
  | bool | number | str | arr | obj => rfl

theorem exists_optionalText_iff {n : Nat} {v : Option JsValue} :
    (∃ t, optionalText numbers n v = some t) ↔ ∀ w, v = some w → ¬ w.Untextable := by
  cases v with
  | none =>
    refine iff_of_true ⟨none, rfl⟩ ?_
    rintro _ ⟨⟩
  | some v =>
    by_cases hnull : v = .null
    · subst hnull
      refine iff_of_true ⟨none, rfl⟩ ?_
      rintro _ ⟨⟩ hnull
      cases hnull
    · rw [optionalText_some numbers hnull]
      simp only [← toText_eq_none_iff numbers, Option.some.injEq, forall_eq']
      exact Option.isSome_iff_exists.symm.trans (by simp [Option.isSome_iff_ne_none])

/-- A level is one of the three names, or its text. -/
theorem levelToString_cases (v : Option JsValue) :
    (∃ k, ∃ name ∈ ["info", "warn", "error"], isLevel k name v ∧
      levelToString numbers v = some (utf16 name)) ∨
    levelToString numbers v = (stringOf numbers v).map (·.take 16) := by
  unfold levelToString
  split
  · rename_i h
    exact .inl ⟨0, "info", by decide, h, rfl⟩
  split
  · rename_i h
    exact .inl ⟨1, "warn", by decide, h, rfl⟩
  split
  · rename_i h
    exact .inl ⟨2, "error", by decide, h, rfl⟩
  · exact .inr rfl

theorem levelName_spec : ∀ name ∈ ["info", "warn", "error"],
    utf16 name ≠ [] ∧ (utf16 name).take 16 = utf16 name := by decide

/-- A level that is a text is only cut: the three names are themselves. -/
theorem levelToString_str (t : Utf16) :
    levelToString numbers (some (.str t)) = some (t.take 16) := by
  rcases levelToString_cases numbers (some (.str t)) with ⟨k, name, hname, h, hlevel⟩ | hlevel
  · rw [hlevel, of_decide_eq_true h, (levelName_spec name hname).2]
  · exact hlevel

/-- A level with a name is neither an object nor blank. -/
theorem isLevel_spec {k : Nat} {name : String} (hname : utf16 name ≠ []) {v : Option JsValue}
    (h : isLevel k name v) : ∀ w, v = some w → ¬ w.Untextable ∧ ¬ w.Blank := by
  rintro w rfl
  cases w with
  | number n => exact ⟨by rintro ⟨⟩, by rintro ⟨⟩⟩
  | str t =>
    refine ⟨by rintro ⟨⟩, ?_⟩
    rintro (_ | _)
    exact hname (of_decide_eq_true h).symm
  | null | bool | arr | obj => cases h

/-- The level has a text, and not the empty one, exactly for the values that are neither
    untextable nor blank. -/
theorem levelToString_spec {v : Option JsValue} :
    (∃ t, levelToString numbers v = some t ∧ t ≠ []) ↔
      ∀ w, v = some w → ¬ w.Untextable ∧ ¬ w.Blank := by
  rcases levelToString_cases numbers v with ⟨k, name, hname, h, hlevel⟩ | hlevel
  · have hne := (levelName_spec name hname).1
    exact iff_of_true ⟨_, hlevel, hne⟩ (isLevel_spec hne h)
  · rw [hlevel]
    have hnone := stringOf_eq_none_iff numbers (v := v)
    have hnil := stringOf_eq_nil_iff numbers (v := v)
    cases htext : stringOf numbers v with
    | none =>
      obtain ⟨w, hw, hno⟩ := hnone.mp htext
      exact iff_of_false (by simp) fun h => (h w hw).1 hno
    | some t =>
      rw [htext] at hnone hnil
      constructor
      · rintro ⟨u, hu, hne⟩ w hw
        refine ⟨fun hno => absurd (hnone.mpr ⟨w, hw, hno⟩) nofun, fun hblank => hne ?_⟩
        have ht : t = [] := Option.some.inj (hnil.mpr ⟨w, hw, hblank⟩)
        rw [ht] at hu
        exact (Option.some.inj hu).symm
      · intro h
        refine ⟨_, rfl, fun htake => ?_⟩
        have ht : t = [] := by simpa using htake
        obtain ⟨w, hw, hblank⟩ := hnil.mp (congrArg some ht)
        exact (h w hw).2 hblank

/-! ## One entry -/

theorem isEntry_iff {e : JsValue} :
    isEntry e ↔ ∃ ts t, e.get "ts" = some (.number ts) ∧ e.get "event" = some (.str t) := by
  unfold isEntry
  split
  · rename_i ts t hts hevent
    exact iff_of_true rfl ⟨ts, t, hts, hevent⟩
  · rename_i hno
    refine iff_of_false nofun ?_
    rintro ⟨ts, t, hts, hevent⟩
    exact hno ts t hts hevent

theorem storable_iff {e : JsValue} :
    storable e ↔ ∃ ts level event, e.get "ts" = some (.number ts) ∧
      e.get "level" = some (.str level) ∧ e.get "event" = some (.str event) ∧
      level ≠ [] ∧ event ≠ [] := by
  unfold storable
  split
  · rename_i ts level event hts hlevel hevent
    simp only [hts, hlevel, hevent, decide_eq_true_eq]
    constructor
    · exact fun h => ⟨ts, level, event, rfl, rfl, rfl, h⟩
    · rintro ⟨_, _, _, ⟨⟩, ⟨⟩, ⟨⟩, h⟩
      exact h
  · rename_i hno
    refine iff_of_false nofun ?_
    rintro ⟨ts, level, event, hts, hlevel, hevent, -⟩
    exact hno ts level event hts hlevel hevent

theorem isEntry_of_storable {e : JsValue} (h : storable e) : isEntry e := by
  obtain ⟨ts, _, event, hts, -, hevent, -⟩ := storable_iff.mp h
  exact isEntry_iff.mpr ⟨ts, event, hts, hevent⟩

/-- What is stored for an entry, from its converted level and message. -/
theorem toEntry_eq_some_iff {e : JsValue} (he : isEntry e) {d : DiagnosticLogEntry} :
    toEntry numbers e = some d ↔
      e.get "ts" = some (.number d.ts) ∧
      (∃ t, levelToString numbers (e.get "level") = some t ∧ d.level = t.take 16) ∧
      (∃ t, e.get "event" = some (.str t) ∧ d.event = t.take 64) ∧
      optionalText numbers 256 (e.get "message") = some d.message := by
  obtain ⟨ts, t, hts, hevent⟩ := isEntry_iff.mp he
  unfold toEntry
  simp only [hts, hevent]
  cases levelToString numbers (e.get "level") with
  | none => simp
  | some level =>
    cases optionalText numbers 256 (e.get "message") with
    | none => simp
    | some message =>
      obtain ⟨dts, dlevel, devent, dmessage⟩ := d
      simp only [Option.pure_def, Option.bind_eq_bind, Option.bind_some, Option.some.injEq,
        DiagnosticLogEntry.mk.injEq, JsValue.number.injEq, JsValue.str.injEq, exists_eq_left']
      constructor
      · rintro ⟨rfl, rfl, rfl, rfl⟩
        exact ⟨rfl, rfl, rfl, rfl⟩
      · rintro ⟨rfl, rfl, rfl, rfl⟩
        exact ⟨rfl, rfl, rfl, rfl⟩

/-- An entry that passes the filter is converted and has its required texts exactly when it
    is clean. -/
theorem toEntry_clean_iff {e : JsValue} (he : isEntry e) :
    (∃ d, toEntry numbers e = some d ∧ d.level ≠ [] ∧ d.event ≠ []) ↔ CleanEntry e := by
  obtain ⟨ts, event, hts, hevent⟩ := isEntry_iff.mp he
  have hlevel := levelToString_spec numbers (v := e.get "level")
  have hmessage := exists_optionalText_iff numbers (n := 256) (v := e.get "message")
  constructor
  · rintro ⟨d, hd, hdlevel, hdevent⟩
    obtain ⟨-, ⟨t, ht, hcut⟩, ⟨u, hu, hcut'⟩, hm⟩ := (toEntry_eq_some_iff numbers he).mp hd
    refine ⟨fun hempty => hdevent ?_, hlevel.mp ⟨t, ht, fun hnil => hdlevel ?_⟩,
      hmessage.mp ⟨_, hm⟩⟩
    · rw [hcut', JsValue.str.inj (Option.some.inj (hu.symm.trans hempty))]
      rfl
    · rw [hcut, hnil]
      rfl
  · intro hclean
    obtain ⟨t, ht, hne⟩ := hlevel.mpr hclean.level
    obtain ⟨message, hm⟩ := hmessage.mpr hclean.message
    have hevent_ne : event ≠ [] := fun hnil => hclean.event (hnil ▸ hevent)
    refine ⟨⟨ts, t.take 16, event.take 64, message⟩,
      (toEntry_eq_some_iff numbers he).mpr ⟨hts, ⟨t, ht, rfl⟩, ⟨event, hevent, rfl⟩, hm⟩, ?_, ?_⟩
    · simpa using hne
    · simpa using hevent_ne

/-- A storable entry keeps its values. -/
theorem storedAs_of_toEntry {e : JsValue} (he : storable e) {d : DiagnosticLogEntry}
    (hd : toEntry numbers e = some d) : StoredAs numbers e d := by
  obtain ⟨ts, level, event, -, hlevel, -, -⟩ := storable_iff.mp he
  obtain ⟨hts, ⟨t, ht, hcut⟩, hevent, hm⟩ :=
    (toEntry_eq_some_iff numbers (isEntry_of_storable he)).mp hd
  refine ⟨hts, ⟨level, hlevel, ?_⟩, hevent, ?_, ?_⟩
  · rw [hlevel, levelToString_str] at ht
    rw [hcut, ← Option.some.inj ht, List.take_take, Nat.min_self]
  · rintro (hnone | hnull)
    · rw [hnone] at hm
      exact (Option.some.inj hm).symm
    · rw [hnull] at hm
      exact (Option.some.inj hm).symm
  · intro v hv hne
    rw [hv, optionalText_some numbers hne] at hm
    obtain ⟨t, ht, hmessage⟩ := Option.map_eq_some_iff.mp hm
    exact ⟨t, ht, hmessage.symm⟩

/-! ## Lists of conversions -/

/-- Converting a list with a property of the results that each element decides for itself. -/
theorem mapM_spec {α β : Type} {f : α → Option β} {P : β → Prop} {l : List α} :
    (∃ ds, l.mapM f = some ds ∧ ∀ d ∈ ds, P d) ↔ ∀ a ∈ l, ∃ d, f a = some d ∧ P d := by
  induction l with
  | nil => simp
  | cons a l ih =>
    rw [List.forall_mem_cons, ← ih]
    cases ha : f a with
    | none => simp [ha]
    | some d => cases hl : l.mapM f <;> simp [ha, hl]

theorem forall₂_of_mapM {α β : Type} {f : α → Option β} {l : List α} {ds : List β}
    (h : l.mapM f = some ds) : List.Forall₂ (fun a d => f a = some d) l ds := by
  induction l generalizing ds with
  | nil =>
    cases h
    exact .nil
  | cons a l ih =>
    rw [List.mapM_cons] at h
    obtain ⟨d, hd, hrest⟩ := Option.bind_eq_some_iff.mp h
    obtain ⟨ds', hds', hcons⟩ := Option.bind_eq_some_iff.mp hrest
    cases hcons
    exact .cons hd (ih hds')

/-- The elements that meet `p` are related to a part of what all elements are related to. -/
theorem sublistForall₂_filter {α β : Type} {R S : α → β → Prop} {p : α → Bool} {l : List α}
    {ds : List β} (h : List.Forall₂ R l ds) (hRS : ∀ a d, p a → R a d → S a d) :
    List.SublistForall₂ S (l.filter p) ds := by
  induction h with
  | nil => exact .nil
  | @cons a d l ds hR _ ih =>
    cases hp : p a with
    | true =>
      rw [List.filter_cons_of_pos hp]
      exact .cons (hRS a d hp hR) ih
    | false =>
      rw [List.filter_cons_of_neg (by simp [hp])]
      exact .cons_right ih

/-! ## The document -/

/-- The document of a message, if no conversion throws. -/
def document (now : Nat) (payload : JsValue) (deviceId : Utf16) (entries : List JsValue) :
    Option DeviceDiagnosticLog := do
  let entries ← ((entries.take 100).filter isEntry).mapM (toEntry numbers)
  let sessionId ← optionalText numbers 64 (payload.get "sessionId")
  let fwVersion ← optionalText numbers 32 (payload.get "fwVersion")
  return {
    deviceId   := deviceId.take 128
    receivedAt := now
    sessionId  := sessionId
    fwVersion  := fwVersion
    entries    := entries }

/-- A document is stored when it can be made, has an entry and passes the schema. -/
theorem handle_stored_iff (now : Nat) {payload : JsValue} {deviceId : Utf16}
    {entries : List JsValue} (hid : payload.get "deviceId" = some (.str deviceId))
    (hne : deviceId ≠ []) (hentries : payload.get "entries" = some (.arr entries))
    {doc : DeviceDiagnosticLog} :
    handleDiagnosticsMessage numbers now payload = .stored doc ↔
      document numbers now payload deviceId entries = some doc ∧ doc.entries ≠ [] ∧ valid doc := by
  obtain ⟨members, rfl⟩ : ∃ members, payload = .obj members := by
    cases payload with
    | obj members => exact ⟨members, rfl⟩
    | null | bool | number | str | arr => cases hid
  have hlog : stringOf numbers ((JsValue.obj members).get "deviceId") ≠ none := by
    rw [hid]
    nofun
  unfold handleDiagnosticsMessage document
  dsimp only
  rw [if_neg hlog]
  simp only [hid, hentries, hne, if_false]
  cases ((entries.take 100).filter isEntry).mapM (toEntry numbers) with
  | none => simp
  | some ds =>
    cases optionalText numbers 64 ((JsValue.obj members).get "sessionId") with
    | none =>
      refine iff_of_false ?_ (fun h => nomatch h.1)
      dsimp only
      split <;> nofun
    | some sessionId =>
      cases optionalText numbers 32 ((JsValue.obj members).get "fwVersion") with
      | none =>
        refine iff_of_false ?_ (fun h => nomatch h.1)
        dsimp only
        split <;> nofun
      | some fwVersion =>
        simp only [Option.pure_def, Option.bind_eq_bind, Option.bind_some, Option.some.injEq]
        split
        · rename_i hzero
          refine iff_of_false nofun ?_
          rintro ⟨rfl, hnonempty, -⟩
          exact hnonempty (List.length_eq_zero_iff.mp hzero)
        · rename_i hzero
          rw [create_eq_stored_iff]
          constructor
          · rintro ⟨rfl, hvalid⟩
            exact ⟨rfl, fun hnil => hzero (List.length_eq_zero_iff.mpr hnil), hvalid⟩
          · rintro ⟨rfl, -, hvalid⟩
            exact ⟨rfl, hvalid⟩

theorem document_eq_some_iff {now : Nat} {payload : JsValue} {deviceId : Utf16}
    {entries : List JsValue} {doc : DeviceDiagnosticLog} :
    document numbers now payload deviceId entries = some doc ↔
      ((entries.take 100).filter isEntry).mapM (toEntry numbers) = some doc.entries ∧
      optionalText numbers 64 (payload.get "sessionId") = some doc.sessionId ∧
      optionalText numbers 32 (payload.get "fwVersion") = some doc.fwVersion ∧
      doc.deviceId = deviceId.take 128 ∧ doc.receivedAt = now := by
  unfold document
  obtain ⟨did, dnow, dsession, dfw, dentries⟩ := doc
  cases ((entries.take 100).filter isEntry).mapM (toEntry numbers) with
  | none => simp
  | some ds =>
    cases optionalText numbers 64 (payload.get "sessionId") with
    | none => simp
    | some sessionId =>
      cases optionalText numbers 32 (payload.get "fwVersion") with
      | none => simp
      | some fwVersion =>
        simp only [Option.pure_def, Option.bind_eq_bind, Option.bind_some, Option.some.injEq,
          DeviceDiagnosticLog.mk.injEq]
        constructor
        · rintro ⟨rfl, rfl, rfl, rfl, rfl⟩
          exact ⟨rfl, rfl, rfl, rfl, rfl⟩
        · rintro ⟨rfl, rfl, rfl, rfl, rfl⟩
          exact ⟨rfl, rfl, rfl, rfl, rfl⟩

theorem valid_iff {doc : DeviceDiagnosticLog} :
    valid doc ↔ doc.deviceId ≠ [] ∧ ∀ d ∈ doc.entries, d.level ≠ [] ∧ d.event ≠ [] :=
  decide_eq_true_iff

/-- The conversions and the schema let the document of a message through exactly when the
    message is clean. -/
theorem document_valid_iff (now : Nat) (payload : JsValue) {deviceId : Utf16}
    (entries : List JsValue) (hne : deviceId ≠ []) :
    (∃ doc, document numbers now payload deviceId entries = some doc ∧ valid doc) ↔
      Clean payload entries := by
  have hentries : (∃ ds, ((entries.take 100).filter isEntry).mapM (toEntry numbers) = some ds ∧
      ∀ d ∈ ds, d.level ≠ [] ∧ d.event ≠ []) ↔
      ∀ e ∈ entries.take 100, isEntry e → CleanEntry e := by
    rw [mapM_spec]
    constructor
    · intro h e he hentry
      exact (toEntry_clean_iff numbers hentry).mp (h e (List.mem_filter.mpr ⟨he, hentry⟩))
    · intro h e he
      obtain ⟨he, hentry⟩ := List.mem_filter.mp he
      exact (toEntry_clean_iff numbers hentry).mpr (h e he hentry)
  constructor
  · rintro ⟨doc, hdoc, hvalid⟩
    obtain ⟨hmap, hsession, hfw, -⟩ := (document_eq_some_iff numbers).mp hdoc
    exact ⟨(exists_optionalText_iff numbers).mp ⟨_, hsession⟩,
      (exists_optionalText_iff numbers).mp ⟨_, hfw⟩,
      hentries.mp ⟨doc.entries, hmap, (valid_iff.mp hvalid).2⟩⟩
  · intro hclean
    obtain ⟨ds, hmap, hds⟩ := hentries.mpr hclean.entries
    obtain ⟨sessionId, hsession⟩ := (exists_optionalText_iff numbers (n := 64)).mpr hclean.sessionId
    obtain ⟨fwVersion, hfw⟩ := (exists_optionalText_iff numbers (n := 32)).mpr hclean.fwVersion
    refine ⟨⟨deviceId.take 128, now, sessionId, fwVersion, ds⟩,
      (document_eq_some_iff numbers).mpr ⟨hmap, hsession, hfw, rfl, rfl⟩, valid_iff.mpr ⟨?_, hds⟩⟩
    simpa using hne

/-- One bad entry never costs the good ones, exactly when there are no good ones or nothing
    makes the whole document fail. -/
theorem keepsGood_iff (now : Nat) {payload : JsValue} {deviceId : Utf16}
    {entries : List JsValue} (hid : payload.get "deviceId" = some (.str deviceId))
    (hne : deviceId ≠ []) (hentries : payload.get "entries" = some (.arr entries)) :
    KeepsGood numbers now payload entries ↔
      (∀ e ∈ entries.take 100, ¬ storable e) ∨ Clean payload entries := by
  have hstored : ∀ {doc}, handleDiagnosticsMessage numbers now payload = .stored doc ↔ _ :=
    handle_stored_iff numbers now hid hne hentries
  have hvalid := document_valid_iff numbers now payload entries hne
  constructor
  · intro h
    by_cases hgood : ∃ e ∈ entries.take 100, storable e
    · obtain ⟨doc, hdoc, -⟩ := h hgood
      obtain ⟨hmade, -, hok⟩ := hstored.mp hdoc
      exact .inr (hvalid.mp ⟨doc, hmade, hok⟩)
    · exact .inl fun e he hs => hgood ⟨e, he, hs⟩
  · rintro (hnone | hclean) ⟨e, he, hs⟩
    · exact absurd hs (hnone e he)
    · obtain ⟨doc, hmade, hok⟩ := hvalid.mpr hclean
      have hall := forall₂_of_mapM ((document_eq_some_iff numbers).mp hmade).1
      have hnonempty : doc.entries ≠ [] := by
        intro hnil
        have hmem : e ∈ (entries.take 100).filter isEntry :=
          List.mem_filter.mpr ⟨he, isEntry_of_storable hs⟩
        rw [hnil, List.forall₂_nil_right_iff] at hall
        rw [hall] at hmem
        cases hmem
      refine ⟨doc, hstored.mpr ⟨hmade, hnonempty, hok⟩, ?_⟩
      -- A storable entry passes the filter, so the storable ones are among the kept ones.
      have hfilter : ((entries.take 100).filter isEntry).filter storable =
          (entries.take 100).filter storable := by
        rw [List.filter_filter]
        refine List.filter_congr fun a _ => ?_
        cases ha : storable a with
        | true => simp [isEntry_of_storable ha]
        | false => rfl
      rw [← hfilter]
      exact sublistForall₂_filter hall fun a d ha hd => storedAs_of_toEntry numbers ha hd

/-- An entry of a message. -/
def entryOf (ts : JsNumber) (level event : Utf16) : JsValue :=
  .obj [(utf16 "ts", .number ts), (utf16 "level", .str level), (utf16 "event", .str event)]

def messageOf (entries : List JsValue) : JsValue :=
  .obj [(utf16 "deviceId", .str (utf16 "mitspe6-gate-001")), (utf16 "entries", .arr entries)]

/-- An entry without the types of one beside a good one. -/
theorem keepsGood_mixed :
    KeepsGood .decimal 0
      (messageOf [.null, entryOf (.rat 1000) (utf16 "warn") (utf16 "connection_lost")])
      [.null, entryOf (.rat 1000) (utf16 "warn") (utf16 "connection_lost")] := by
  refine (keepsGood_iff .decimal 0 rfl (by decide) rfl).mpr (.inr ⟨nofun, nofun, ?_⟩)
  intro e he hentry
  rcases List.mem_pair.mp he with rfl | rfl
  · cases hentry
  · have hevent : (entryOf (.rat 1000) (utf16 "warn") (utf16 "connection_lost")).get "event" =
        some (.str (utf16 "connection_lost")) := rfl
    refine ⟨fun hempty => ?_, ?_, nofun⟩
    · exact absurd (JsValue.str.inj (Option.some.inj (hevent.symm.trans hempty))) (by decide)
    rintro _ ⟨⟩
    exact ⟨nofun, by rintro ⟨⟩⟩

/-- A good entry and one with an empty event: neither is stored. -/
theorem emptyEvent_costs_all :
    ¬ ∀ (numbers : NumberText) (now : Nat) (payload : JsValue) (deviceId : Utf16)
      (entries : List JsValue), payload.get "deviceId" = some (.str deviceId) → deviceId ≠ [] →
      payload.get "entries" = some (.arr entries) → KeepsGood numbers now payload entries := by
  intro h
  let good := entryOf (.rat 1000) (utf16 "warn") (utf16 "connection_lost")
  let bad := entryOf (.rat 2000) (utf16 "info") (utf16 "")
  have hkept := h .decimal 0 (messageOf [good, bad]) _ [good, bad] rfl (by decide) rfl
  obtain ⟨doc, hdoc, -⟩ := hkept ⟨good, List.mem_cons_self, rfl⟩
  have hfailed : handleDiagnosticsMessage .decimal 0 (messageOf [good, bad]) = .failed := rfl
  cases hfailed.symm.trans hdoc

end Diagnostics

end Backend
