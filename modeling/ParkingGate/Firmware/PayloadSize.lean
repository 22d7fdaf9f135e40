-- SUMMARY: The document of a diagnostic batch: it holds every entry exactly when its slots and its distinct texts take at most 1024 bytes.
import ParkingGate.Firmware.DiagnosticLog
import ParkingGate.Firmware.JsonMemory

/-!
# The size of a diagnostic batch

The upload builds a document of 1024 bytes for each batch and publishes what the document
holds. The batch is removed from the log afterwards, whether or not all of it was held.
-/

namespace Firmware

open JsonMemory

namespace DiagnosticPayload

def capacity : Nat := 1024

/-! ## Building the document -/

/-- `lvl == 0 ? "info" : (lvl == 1 ? "warn" : "error")`. -/
def levelName (lvl : UInt8) : Json :=
  .str (ascii (if lvl = 0 then "info" else if lvl = 1 then "warn" else "error"))

/-- The assignments to the object of an entry. The texts come from buffers. -/
def entryFields (e : DiagnosticEntry) : List Field :=
  [⟨"ts", .linked (.int e.ts.toNat)⟩,
   ⟨"level", .linked (levelName e.level)⟩,
   ⟨"event", .copied e.event⟩] ++
    if e.message.isEmpty then [] else [⟨"message", .copied e.message⟩]

/-- The assignments to the document, before its `entries`. -/
def rootFields (sessionId : UInt32) : List Field :=
  [⟨"deviceId", .linked (.str (ascii "mitspe6-gate-001"))⟩,
   ⟨"fwVersion", .linked (.str (ascii "fw-prod-1.0.0"))⟩,
   ⟨"sessionId", .linked (.int sessionId.toNat)⟩]

/-- The elements of the array. `createNestedObject` returns no object when there is no slot
    for one, and the assignments to it then do nothing. -/
def addEntries (lib : JsonMemory) : lib.Pool → List DiagnosticEntry → List Json
  | _, []         => []
  | pool, e :: es =>
    match lib.addSlot pool with
    | none      => addEntries lib pool es
    | some pool =>
      let o := Building.assignAll ⟨pool, []⟩ (entryFields e)
      o.object :: addEntries lib o.pool es

def buildDocument (lib : JsonMemory) (sessionId : UInt32) (batch : List DiagnosticEntry) : Json :=
  let doc := Building.assignAll ⟨lib.create capacity, []⟩ (rootFields sessionId)
  match lib.addSlot doc.pool with
  | none      => doc.object
  | some pool => .obj (doc.members ++ [(ascii "entries", .arr (addEntries lib pool batch))])

/-! ## What it should hold -/

/-- The object holds the data of the entry. -/
structure Shows (o : Json) (e : DiagnosticEntry) : Prop where
  ts : o.member "ts" = some (.int e.ts.toNat)
  level : o.member "level" = some (levelName e.level)
  event : o.member "event" = some (.str e.event.bytes)
  message : e.message.isEmpty = false → o.member "message" = some (.str e.message.bytes)

/-- The document has one object for each entry of the batch, in order, with its data. -/
def Carries (doc : Json) (batch : List DiagnosticEntry) : Prop :=
  ∃ os, doc.member "entries" = some (.arr os) ∧ List.Forall₂ Shows os batch

/-! ## What it takes -/

/-- The texts that an entry has copied. -/
def entryTexts (e : DiagnosticEntry) : List CString :=
  if e.message.isEmpty then [e.event] else [e.event, e.message]

/-- One slot for the object and one for each of its members. -/
def entrySlots (e : DiagnosticEntry) : Nat := if e.message.isEmpty then 4 else 5

/-- The bytes of the whole document, each distinct text counted once. -/
def payloadBytes (batch : List DiagnosticEntry) : Nat :=
  slotSize * (4 + (batch.map entrySlots).sum) +
    ∑ t ∈ (batch.flatMap entryTexts).toFinset, (t.bytes.length + 1)

theorem entryFields_length (e : DiagnosticEntry) : 1 + (entryFields e).length = entrySlots e := by
  unfold entryFields entrySlots
  split <;> rfl

theorem entryFields_texts (e : DiagnosticEntry) :
    texts (entryFields e) = (entryTexts e).toFinset := by
  unfold entryFields entryTexts
  split <;> simp [texts, Value.texts]

theorem entryFields_keys (e : DiagnosticEntry) : ((entryFields e).map (ascii ·.key)).Nodup := by
  unfold entryFields
  split
  · show [ascii "ts", ascii "level", ascii "event"].Nodup
    decide
  · show [ascii "ts", ascii "level", ascii "event", ascii "message"].Nodup
    decide

theorem entryFields_ne_null (e : DiagnosticEntry) : ∀ f ∈ entryFields e, f.value.json ≠ .null := by
  intro f hf
  unfold entryFields at hf
  split at hf
  · simp only [List.cons_append, List.nil_append, List.mem_cons, List.not_mem_nil, or_false] at hf
    rcases hf with rfl | rfl | rfl <;> nofun
  · simp only [List.cons_append, List.nil_append, List.mem_cons, List.not_mem_nil, or_false] at hf
    rcases hf with rfl | rfl | rfl | rfl <;> nofun

/-- An object shows an entry when it holds every value that was assigned. -/
theorem shows_iff {o : Json} {e : DiagnosticEntry} :
    Shows o e ↔ ∀ f ∈ entryFields e, o.member f.key = some f.value.json := by
  cases hmessage : e.message.isEmpty with
  | true =>
    simp only [entryFields, hmessage, if_true, List.append_nil, List.forall_mem_cons]
    constructor
    · exact fun h => ⟨h.ts, h.level, h.event, nofun⟩
    · rintro ⟨hts, hlevel, hevent, -⟩
      exact ⟨hts, hlevel, hevent, fun h => absurd (hmessage.symm.trans h) (by decide)⟩
  | false =>
    simp only [entryFields, hmessage, Bool.false_eq_true, if_false, List.cons_append,
      List.nil_append, List.forall_mem_cons]
    constructor
    · exact fun h => ⟨h.ts, h.level, h.event, h.message hmessage, nofun⟩
    · rintro ⟨hts, hlevel, hevent, hmsg, -⟩
      exact ⟨hts, hlevel, hevent, fun _ => hmsg⟩

/-! ## The exact condition -/

section Exact

variable {lib : JsonMemory} {contents : lib.Pool → Contents}

theorem length_addEntries_le (lib : JsonMemory) (pool : lib.Pool) (batch : List DiagnosticEntry) :
    (addEntries lib pool batch).length ≤ batch.length := by
  induction batch generalizing pool with
  | nil => exact Nat.le_refl _
  | cons e es ih =>
    unfold addEntries
    split
    · exact (ih pool).trans (Nat.le_succ _)
    · exact Nat.succ_le_succ (ih _)

theorem addEntries_cons {pool pool' : lib.Pool} (hadd : lib.addSlot pool = some pool')
    (e : DiagnosticEntry) (es : List DiagnosticEntry) :
    addEntries lib pool (e :: es) =
      (Building.assignAll ⟨pool', []⟩ (entryFields e)).object ::
        addEntries lib (Building.assignAll ⟨pool', []⟩ (entryFields e)).pool es := by
  simp only [addEntries, hadd]

/-- A pool with the slots and the texts of an entry. -/
theorem add_entry (c : Contents) (e : DiagnosticEntry) :
    (c.add 1 ∅).add (entryFields e).length (texts (entryFields e)) =
      c.add (entrySlots e) (entryTexts e).toFinset := by
  rw [Contents.add_add, entryFields_length, entryFields_texts, Finset.empty_union]

/-- The array has all the entries exactly when they all fit. -/
theorem addEntries_iff (h : lib.Lawful contents) {pool : lib.Pool} (hpool : (contents pool).Fits)
    (batch : List DiagnosticEntry) :
    List.Forall₂ Shows (addEntries lib pool batch) batch ↔
      ((contents pool).add (batch.map entrySlots).sum (batch.flatMap entryTexts).toFinset).Fits := by
  induction batch generalizing pool with
  | nil =>
    apply iff_of_true .nil
    simpa using hpool
  | cons e es ih =>
    rw [List.map_cons, List.sum_cons, List.flatMap_cons, List.toFinset_append]
    have hfirst : ((contents pool).add (entrySlots e + (es.map entrySlots).sum)
        ((entryTexts e).toFinset ∪ (es.flatMap entryTexts).toFinset)).Fits →
        ((contents pool).add (entrySlots e) (entryTexts e).toFinset).Fits :=
      fun hfits => hfits.of_add (Nat.le_add_right _ _) Finset.subset_union_left
    obtain ⟨hslot, pool', hadd, hpool'⟩ | ⟨hslot, hnone⟩ := fits_or_refused (h.addSlot pool)
    · have hcontents : (contents pool').add (entryFields e).length (texts (entryFields e)) =
          (contents pool).add (entrySlots e) (entryTexts e).toFinset := by
        rw [hpool', add_entry]
      -- The object of the first entry shows it exactly when its own fields fit.
      have hkeys : (([] : List (List UInt8 × Json)).map (·.1) ++
          (entryFields e).map (ascii ·.key)).Nodup := entryFields_keys e
      have hshows := Building.holds_iff h (o := ⟨pool', []⟩) (hpool' ▸ hslot) hkeys
        (entryFields_ne_null e)
      rw [← shows_iff, hcontents] at hshows
      rw [addEntries_cons hadd, List.forall₂_cons, hshows]
      by_cases hfits : ((contents pool).add (entrySlots e) (entryTexts e).toFinset).Fits
      · have hrest := Building.assignAll_of_fits h (o := ⟨pool', []⟩) (hcontents ▸ hfits)
        rw [and_iff_right hfits, ih (by rw [hrest, hcontents]; exact hfits), hrest, hcontents,
          Contents.add_add]
      · exact iff_of_false (fun hboth => hfits hboth.1) (fun hall => hfits (hfirst hall))
    · -- Without a slot for its object an entry is left out, and the array stays too short.
      refine iff_of_false (fun hall => ?_) fun hfits => ?_
      · have hlen := hall.length_eq
        have hle := length_addEntries_le lib pool es
        simp only [addEntries, hnone, List.length_cons] at hlen
        omega
      · have hone : 1 ≤ entrySlots e := entryFields_length e ▸ Nat.le_add_right 1 _
        exact hslot ((hfirst hfits).of_add hone (Finset.empty_subset _))

/-- What the pool holds when the array is created: the slots of the four members. -/
def rootContents : Contents := ⟨capacity, 4, ∅⟩

theorem rootContents_add_fits_iff (batch : List DiagnosticEntry) :
    (rootContents.add (batch.map entrySlots).sum (batch.flatMap entryTexts).toFinset).Fits ↔
      payloadBytes batch ≤ 1024 := by
  simp [Contents.Fits, Contents.bytes, Contents.add, rootContents, payloadBytes, capacity]

/-- The members before the array always fit, and so does the array itself. -/
theorem buildDocument_entries (h : lib.Lawful contents) (sessionId : UInt32)
    (batch : List DiagnosticEntry) :
    ∃ pool, contents pool = rootContents ∧
      (buildDocument lib sessionId batch).member "entries" =
        some (.arr (addEntries lib pool batch)) := by
  let o : Building lib := ⟨lib.create capacity, []⟩
  have hcreate : contents o.pool = ⟨capacity, 0, ∅⟩ := h.create capacity
  have hroot : contents (o.assignAll (rootFields sessionId)).pool = ⟨capacity, 3, ∅⟩ := by
    have hfits : (Contents.add ⟨capacity, 0, ∅⟩ 3 ∅).Fits := by decide
    exact (Building.assignAll_of_fits h (by rw [hcreate]; exact hfits)).trans (by rw [hcreate]; rfl)
  have hmember : (o.assignAll (rootFields sessionId)).object.member "entries" = none := by
    have hkey : ascii "entries" ∉ (rootFields sessionId).map (ascii ·.key) := by
      show ascii "entries" ∉ [ascii "deviceId", ascii "fwVersion", ascii "sessionId"]
      decide
    exact o.member_assignAll_of_notMem hkey
  obtain ⟨-, pool, hadd, hpool⟩ | ⟨hno, -⟩ :=
    fits_or_refused (h.addSlot (o.assignAll (rootFields sessionId)).pool)
  · refine ⟨pool, by rw [hpool, hroot]; rfl, ?_⟩
    simp only [buildDocument]
    rw [hadd]
    exact Json.member_append hmember _
  · exact absurd (by rw [hroot]; decide) hno

theorem carries_iff_fits (h : lib.Lawful contents) (sessionId : UInt32)
    (batch : List DiagnosticEntry) :
    Carries (buildDocument lib sessionId batch) batch ↔
      (rootContents.add (batch.map entrySlots).sum (batch.flatMap entryTexts).toFinset).Fits := by
  obtain ⟨pool, hpool, hentries⟩ := buildDocument_entries h sessionId batch
  have hfits : (contents pool).Fits := by rw [hpool]; decide
  rw [← hpool, ← addEntries_iff h hfits]
  constructor
  · rintro ⟨os, hos, hall⟩
    obtain rfl := Json.arr.inj (Option.some.inj (hentries.symm.trans hos))
    exact hall
  · exact fun hall => ⟨_, hentries, hall⟩

/-- The document carries every entry of the batch exactly when the batch takes at most 1024
    bytes. -/
theorem carries_iff_bytes_le (h : lib.Lawful contents) (sessionId : UInt32)
    (batch : List DiagnosticEntry) :
    Carries (buildDocument lib sessionId batch) batch ↔ payloadBytes batch ≤ 1024 :=
  (carries_iff_fits h sessionId batch).trans (rootContents_add_fits_iff batch)

/-! ## The whole document -/

/-- The object of an entry, with all its members. -/
def entryObject (e : DiagnosticEntry) : Json :=
  .obj ((entryFields e).map fun f => (ascii f.key, f.value.json))

theorem addEntries_of_fits (h : lib.Lawful contents) {pool : lib.Pool} {batch : List DiagnosticEntry}
    (hfits : ((contents pool).add (batch.map entrySlots).sum (batch.flatMap entryTexts).toFinset).Fits) :
    addEntries lib pool batch = batch.map entryObject := by
  induction batch generalizing pool with
  | nil => rfl
  | cons e es ih =>
    rw [List.map_cons, List.sum_cons, List.flatMap_cons, List.toFinset_append] at hfits
    have hone : 1 ≤ entrySlots e := entryFields_length e ▸ Nat.le_add_right 1 _
    have hslot := hfits.of_add (hone.trans (Nat.le_add_right _ _)) (Finset.empty_subset _)
    have hfirst := hfits.of_add (Nat.le_add_right (entrySlots e) _) Finset.subset_union_left
    obtain ⟨-, pool', hadd, hpool'⟩ | ⟨hno, -⟩ := fits_or_refused (h.addSlot pool)
    · have hcontents : (contents pool').add (entryFields e).length (texts (entryFields e)) =
          (contents pool).add (entrySlots e) (entryTexts e).toFinset := by
        rw [hpool', add_entry]
      have hpool := Building.assignAll_of_fits h (o := ⟨pool', []⟩) (hcontents ▸ hfirst)
      have hmembers := Building.members_assignAll h (o := ⟨pool', []⟩) (hcontents ▸ hfirst)
      rw [addEntries_cons hadd, ih (by rw [hpool, hcontents, Contents.add_add]; exact hfits)]
      exact congrArg (Json.obj · :: _) hmembers
    · exact absurd hslot hno

/-- A batch of at most 1024 bytes is built with all its members. -/
theorem buildDocument_of_bytes_le (h : lib.Lawful contents) (sessionId : UInt32) {batch : List DiagnosticEntry}
    (hbytes : payloadBytes batch ≤ 1024) :
    buildDocument lib sessionId batch =
      .obj ((rootFields sessionId).map (fun f => (ascii f.key, f.value.json)) ++
        [(ascii "entries", .arr (batch.map entryObject))]) := by
  let o : Building lib := ⟨lib.create capacity, []⟩
  have hcreate : contents o.pool = ⟨capacity, 0, ∅⟩ := h.create capacity
  have hfits : ((contents o.pool).add (rootFields sessionId).length (texts (rootFields sessionId))).Fits := by
    have hfits : (Contents.add ⟨capacity, 0, ∅⟩ 3 ∅).Fits := by decide
    rw [hcreate]
    exact hfits
  have hroot : contents (o.assignAll (rootFields sessionId)).pool = ⟨capacity, 3, ∅⟩ :=
    (Building.assignAll_of_fits h hfits).trans (by rw [hcreate]; rfl)
  have hmembers := Building.members_assignAll h hfits
  obtain ⟨-, pool, hadd, hpool⟩ | ⟨hno, -⟩ :=
    fits_or_refused (h.addSlot (o.assignAll (rootFields sessionId)).pool)
  · have hentries : addEntries lib pool batch = batch.map entryObject := by
      refine addEntries_of_fits h ?_
      rw [hpool, hroot]
      exact (rootContents_add_fits_iff batch).mpr hbytes
    simp only [buildDocument]
    rw [hadd]
    dsimp only
    rw [hentries, hmembers]
    rfl
  · exact absurd (by rw [hroot]; decide) hno

end Exact

/-- Two events of a short outage. -/
def shortBatch : List DiagnosticEntry :=
  [⟨300012, 1, CString.ofAscii "ppp_rebuild", CString.ofAscii "reason=mqtt_stuck"⟩,
   ⟨340500, 0, CString.ofAscii "connection_restored", CString.empty⟩]

theorem shortBatch_carried :
    Carries (buildDocument reference 77 shortBatch) shortBatch :=
  (carries_iff_bytes_le reference_lawful 77 shortBatch).mpr (by decide +kernel)

/-- Ten entries whose texts all differ and fill their fields. -/
def fullBatch : List DiagnosticEntry :=
  (List.range 10).map fun i =>
    ⟨1000, 1, CString.ofBytes (List.replicate 19 (UInt8.ofNat (65 + i))),
      CString.ofBytes (List.replicate 31 (UInt8.ofNat (97 + i)))⟩

/-- A batch that the log can hold does not fit into the document. -/
theorem fullBatch_not_carried :
    ¬ ∀ (lib : JsonMemory) (contents : lib.Pool → Contents), lib.Lawful contents →
      ∀ (sessionId : UInt32) (batch : List DiagnosticEntry), batch.length ≤ 10 →
        (∀ e ∈ batch, e.event.bytes.length ≤ 19 ∧ e.message.bytes.length ≤ 31) →
        Carries (buildDocument lib sessionId batch) batch := by
  intro h
  have hlen : ∀ e ∈ fullBatch, e.event.bytes.length ≤ 19 ∧ e.message.bytes.length ≤ 31 := by
    decide +kernel
  have hcarried := h reference id reference_lawful 77 fullBatch (by decide) hlen
  have hbytes : ¬ payloadBytes fullBatch ≤ 1024 := by decide +kernel
  exact hbytes ((rootContents_add_fits_iff _).mp ((carries_iff_fits reference_lawful 77 _).mp hcarried))

end DiagnosticPayload

end Firmware
