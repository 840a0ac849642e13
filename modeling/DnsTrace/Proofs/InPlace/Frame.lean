import DnsTrace.Proofs.InPlace.Steps
import DnsTrace.Proofs.Name.Unfolding

/-!
# Messages read in place

The frame of a message is read from a slice that gets shorter as it is read and always ends where
the message ends. A reader that stops hands back the slice at which it stopped. The two positions
that a message needs are lengths taken from each other: where record data starts, and where a
malformed frame is reported. The octets that a name takes in place are a third such difference.

So the slice is never longer than what it was cut from, also where that was only a window of the
message or the target of a pointer, and messages and names are read in place as they are read by
positions.
-/

namespace DnsTrace

namespace InPlace

/-- What reading a frame stops for: the octets from which it could not go on, and the defect. -/
structure Stop where
  input : Octets
  defect : Defect

/-- What is left of octets that end at `bound` stands for a cursor. -/
structure Stands (bound : Nat) (slice : Octets) (cursor : Cursor) : Prop where
  rest_eq : cursor.rest = slice
  position_add_length : cursor.position + slice.length = bound

/-- Among octets that end at `bound`, a slice reports the position at which it starts. -/
def Reports (bound : Nat) (stop : Stop) (fault : Fault) : Prop :=
  ∃ offset, offset + stop.input.length = bound ∧ fault = .malformed offset stop.defect

section Fields

variable {bound : Nat}

/-- A field of `n` octets. -/
def field (n : Nat) : Reader Octets Stop Octets := do
  let slice ← get
  match Octets.split? n slice with
  | none => throw (Stop.mk slice .endOfInput)
  | some (front, back) =>
      set back
      return front

/-- A field of one octet. -/
def field8 : Reader Octets Stop UInt8 := do
  let octets ← field 1
  return UInt8.ofNat (Octets.value octets)

/-- A field of two octets. -/
def field16 : Reader Octets Stop UInt16 := do
  let octets ← field 2
  return UInt16.ofNat (Octets.value octets)

/-- A field of four octets. -/
def field32 : Reader Octets Stop UInt32 := do
  let octets ← field 4
  return UInt32.ofNat (Octets.value octets)

/-- What is left behind a field ends where the octets end. -/
theorem field_follows (n : Nat) : Follows (Reports bound) (Stands bound) (field n) (·.field n) := by
  intro slice cursor hstands
  obtain ⟨rfl, hbound⟩ := hstands
  show Matches _ _ (outcome (field n) cursor.rest) (cursor.field n)
  rw [outcome, field, bind_of_eq_ok (get_apply _), Cursor.field, Cursor.take?]
  cases hsplit : Octets.split? n cursor.rest with
  | none => exact .error ⟨cursor.position, hbound, rfl⟩
  | some taken =>
    obtain ⟨front, back⟩ := taken
    obtain ⟨hrest, hfront⟩ := Octets.split?_eq_some_iff.mp hsplit
    rw [hrest, List.length_append] at hbound
    refine .ok ⟨rfl, rfl, ?_⟩
    show cursor.position + n + back.length = bound
    omega

/-- A field of one octet is read in place. -/
theorem field8_follows : Follows (Reports bound) (Stands bound) field8 Cursor.field8 :=
  (field_follows 1).bind fun _ => .pure _

/-- A field of two octets is read in place. -/
theorem field16_follows : Follows (Reports bound) (Stands bound) field16 Cursor.field16 :=
  (field_follows 2).bind fun _ => .pure _

/-- A field of four octets is read in place. -/
theorem field32_follows : Follows (Reports bound) (Stands bound) field32 Cursor.field32 :=
  (field_follows 4).bind fun _ => .pure _

/-- The run at the front of a slice. -/
def run (slice : Octets) : Attempt Stop (Run × Octets) :=
  match slice with
  | [] => throw (Stop.mk slice .endOfInput)
  | first :: behind =>
      match Lead.ofOctet first with
      | .reserved => throw (Stop.mk slice .reservedLength)
      | .pointer high =>
          match behind with
          | [] => throw (Stop.mk slice .endOfInput)
          | low :: back => pure (⟨[], some (high * 256 + low.toNat)⟩, back)
      | .label 0 => pure (⟨[], none⟩, behind)
      | .label (length + 1) =>
          match _hsplit : Octets.split? (length + 1) behind with
          | none => throw (Stop.mk behind .endOfInput)
          | some (label, back) => do
              let (run, rest) ← run back
              return (run.cons label, rest)
termination_by slice.length
decreasing_by
  have := Octets.length_le_of_split? _hsplit
  simp only [List.length_cons]
  omega

/-- Every element of a run is read from a slice that ends where the octets end. -/
theorem run_matches {slice : Octets} {cursor : Cursor} (h : Stands bound slice cursor) :
    Matches (Reports bound) (fun left right => left.1 = right.1 ∧ Stands bound left.2 right.2)
      (run slice) cursor.readRun := by
  obtain ⟨position, octets⟩ := cursor
  obtain ⟨rfl, hbound⟩ := h
  show Matches _ _ (run octets) (Run.read position octets)
  fun_induction Run.read position octets with
  | case1 position =>
    rw [run]
    exact .error ⟨position, hbound, rfl⟩
  | case2 position first behind hlead =>
    rw [run, hlead]
    exact .error ⟨position, hbound, rfl⟩
  | case3 position first high hlead =>
    rw [run, hlead]
    exact .error ⟨position, hbound, rfl⟩
  | case4 position first high hlead low back =>
    rw [run, hlead]
    refine .ok ⟨rfl, rfl, ?_⟩
    simp only [List.length_cons] at hbound
    show position + 2 + back.length = bound
    omega
  | case5 position first behind hlead =>
    rw [run, hlead]
    refine .ok ⟨rfl, rfl, ?_⟩
    simp only [List.length_cons] at hbound
    show position + 1 + behind.length = bound
    omega
  | case6 position first behind length hlead hsplit =>
    rw [run, hlead]
    simp only [List.length_cons] at hbound
    dsimp only
    split
    · refine .error ⟨position + 1, ?_, rfl⟩
      show position + 1 + behind.length = bound
      omega
    · rename_i hsome
      rw [hsplit] at hsome
      cases hsome
  | case7 position first behind length hlead label back hsplit ih =>
    rw [run, hlead]
    dsimp only
    split
    · rename_i hnone
      rw [hsplit] at hnone
      cases hnone
    · rename_i label' back' hsome
      rw [hsplit] at hsome
      cases hsome
      obtain ⟨rfl, hlabel⟩ := Octets.split?_eq_some_iff.mp hsplit
      simp only [List.length_cons, List.length_append] at hbound
      have hback : position + 1 + (length + 1) + back.length = bound := by omega
      refine (ih hback).bind ?_
      rintro ⟨inner, rest⟩ ⟨inner', next⟩ ⟨rfl, hstands⟩
      exact .ok ⟨rfl, hstands⟩

/-- The run at the front of a slice, as a reader. -/
def readRun : Reader Octets Stop Run := do
  let (taken, back) ← run (← get)
  set back
  return taken

/-- Reading a run comes to the run at the front of the slice. -/
theorem outcome_readRun (slice : Octets) : outcome readRun slice = run slice := by
  rw [readRun, outcome_bind, outcome_of_eq_ok (get_apply _)]
  change outcome ((liftM (run slice) : Reader Octets Stop (Run × Octets)) >>= fun taken => do
    set taken.2
    return taken.1) slice = run slice
  rw [outcome_lift_bind]
  match run slice with
  | none | some (.ok _) | some (.error _) => rfl

/-- A run is read in place. -/
theorem readRun_follows : Follows (Reports bound) (Stands bound) readRun Cursor.readRun := by
  intro slice cursor hstands
  rw [outcome_readRun]
  exact run_matches hstands

end Fields

section Items

/-- How far a slice that is left of the octets of a message starts behind their front. -/
def offsetIn (raw : Octets) : Reader Octets Stop Nat := do
  let slice ← get
  difference? raw.length slice.length

/-- A question. -/
def question : Reader Octets Stop (Question Run) := do
  let name ← readRun
  let type ← field16
  let cls ← field16
  return ⟨name, .ofCode type, .ofCode cls⟩

/-- A record of the message `raw`. -/
def record (raw : Octets) : Reader Octets Stop (Record Run) := do
  let name ← readRun
  let type ← field16
  let cls ← field16
  let ttl ← field32
  let rdlength ← field16
  let rdataOffset ← offsetIn raw
  let rdata ← field rdlength.toNat
  return ⟨name, .ofCode type, .ofCode cls, ttl, rdata, rdataOffset⟩

/-- A header and the section sizes behind it. -/
def header : Reader Octets Stop (Header × SectionSizes) := do
  let id ← field16
  let high ← field8
  let low ← field8
  let questions ← field16
  let answers ← field16
  let authority ← field16
  let additional ← field16
  return (.ofWire id high low, ⟨questions, answers, authority, additional⟩)

/-- As many items as the header announces for each section. -/
def body (raw : Octets) (sizes : SectionSizes) : Reader Octets Stop (Body Run) := do
  let questions ← many question sizes.questions.toNat
  let answers ← many (record raw) sizes.answers.toNat
  let authority ← many (record raw) sizes.authority.toNat
  let additional ← many (record raw) sizes.additional.toNat
  return ⟨questions, answers, authority, additional⟩

/-- The envelope of the message `raw`. -/
def envelope (raw : Octets) : Reader Octets Stop Envelope := do
  let (header, sizes) ← header
  let body ← body raw sizes
  return ⟨header, body⟩

variable {raw : Octets}

/-- What a slice lacks of the message is the position of the cursor. -/
theorem offsetIn_follows :
    Follows (Reports raw.length) (Stands raw.length) (offsetIn raw) fun cursor =>
      pure (cursor.position, cursor) := by
  intro slice cursor hstands
  have hbound := hstands.position_add_length
  have hoffset : difference? raw.length slice.length = some cursor.position := by
    rw [difference?_of_le (by omega)]
    congr 1
    omega
  have hyields : offsetIn raw slice = some (.ok cursor.position, slice) := by
    rw [offsetIn, bind_of_eq_ok (get_apply _), hoffset]
    rfl
  rw [outcome_of_eq_ok hyields]
  exact .ok ⟨rfl, hstands⟩

/-- A slice that is longer than the message is no part of it, and starts nowhere in it. -/
example : offsetIn [] [0] = none := rfl

/-- Octets are captured in place together with the position at which they start. -/
theorem capture_follows {α : Type} (n : Nat) (item : Nat → Octets → α) :
    Follows (Reports raw.length) (Stands raw.length)
      (do
        let offset ← offsetIn raw
        let octets ← field n
        return item offset octets)
      fun cursor => do
        let (octets, next) ← cursor.field n
        return (item cursor.position octets, next) := by
  -- Reading by positions has the offset at hand; here it is a step of its own.
  have hsteps : Follows (Reports raw.length) (Stands raw.length)
      (offsetIn raw >>= fun offset => field n >>= fun octets => pure (item offset octets))
      fun cursor => do
        let (offset, cursor) ← (pure (cursor.position, cursor) : Except Fault (Nat × Cursor))
        let (octets, next) ← cursor.field n
        return (item offset octets, next) :=
    offsetIn_follows.bind fun _ => (field_follows n).bind fun _ => .pure _
  exact hsteps

/-- A question is read in place. -/
theorem question_follows {bound : Nat} :
    Follows (Reports bound) (Stands bound) question Question.read :=
  readRun_follows.bind fun _ => field16_follows.bind fun _ => field16_follows.bind fun _ => .pure _

/-- A record is read in place, with the position of its data. -/
theorem record_follows :
    Follows (Reports raw.length) (Stands raw.length) (record raw) Record.read :=
  readRun_follows.bind fun _ =>
    field16_follows.bind fun _ =>
      field16_follows.bind fun _ =>
        field32_follows.bind fun _ =>
          field16_follows.bind fun rdlength => capture_follows rdlength.toNat _

/-- A header is read in place. -/
theorem header_follows {bound : Nat} :
    Follows (Reports bound) (Stands bound) header Header.read :=
  field16_follows.bind fun _ =>
    field8_follows.bind fun _ =>
      field8_follows.bind fun _ =>
        field16_follows.bind fun _ =>
          field16_follows.bind fun _ =>
            field16_follows.bind fun _ => field16_follows.bind fun _ => .pure _

/-- The sections are read in place. -/
theorem body_follows (sizes : SectionSizes) :
    Follows (Reports raw.length) (Stands raw.length) (body raw sizes) (Body.read sizes) :=
  (question_follows.many _).bind fun _ =>
    (record_follows.many _).bind fun _ =>
      (record_follows.many _).bind fun _ => (record_follows.many _).bind fun _ => .pure _

/-- An envelope is read in place. -/
theorem envelope_follows :
    Follows (Reports raw.length) (Stands raw.length) (envelope raw) Envelope.read :=
  header_follows.bind fun header =>
    (body_follows header.2).bind fun _ => .pure _

end Items

end InPlace

end DnsTrace
