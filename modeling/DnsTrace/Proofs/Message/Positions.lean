import DnsTrace.Proofs.Name.Limit
import DnsTrace.Proofs.Name.Stations

/-!
# The positions that are reported

A malformed frame is reported with an offset into the message, also where it was met in a window of
the message or behind a pointer. This offset is always the place of the defect.

`Walk.DueAt` follows a name from its first octet through labels and pointers to the places at which
a length octet is due, each with the end of the window in which it is read there: the first run may
be cut off by a limit, and behind a pointer it is the message that ends. `Envelope.FieldAt` and
`Envelope.DataAt` are the places of the fields of fixed width and of record data. A reserved length
octet is reported at its own place; everything else that can be wrong is something that is due at a
place and passes the end, and what is reported is where it begins.
-/

namespace DnsTrace

namespace Walk

/-- A name from `start` on, whose first run must end before `limit`, has a length octet due at a
position, in a window with this end. -/
inductive DueAt (raw : Octets) (start limit : Nat) : Nat → Nat → Prop
  /-- The name begins with a length octet. -/
  | inline (inside : start ≤ limit) : DueAt raw start limit start limit
  /-- Behind a complete label another one is due. -/
  | behind {position stop : Nat} {octet : UInt8} (due : DueAt raw start limit position stop)
      (stands : raw[position]? = some octet) (bits : 0 < octet.toNat ∧ octet.toNat < 64)
      (inside : position + 1 + octet.toNat ≤ stop) :
      DueAt raw start limit (position + 1 + octet.toNat) stop
  /-- Behind a pointer the name goes on in the message. -/
  | target {position stop : Nat} {high low : UInt8} (due : DueAt raw start limit position stop)
      (stands : raw[position]? = some high) (bits : 192 ≤ high.toNat)
      (low_stands : raw[position + 1]? = some low) (inside : position + 2 ≤ stop)
      (target_lt : (high.toNat - 192) * 256 + low.toNat < raw.length) :
      DueAt raw start limit ((high.toNat - 192) * 256 + low.toNat) raw.length

/-- A length octet with reserved bits is due at this position. -/
def ReservedAt (raw : Octets) (start limit position : Nat) : Prop :=
  ∃ stop octet, DueAt raw start limit position stop ∧ position < stop ∧
    raw[position]? = some octet ∧ 64 ≤ octet.toNat ∧ octet.toNat < 192

/-- A name passes the end of its window with what begins at this position: a length octet that is
due there, a pointer that lacks its second octet, or a label whose length stands in front of it. -/
inductive PassesEndAt (raw : Octets) (start limit : Nat) : Nat → Nat → Prop
  | missing {stop : Nat} (due : DueAt raw start limit stop stop) :
      PassesEndAt raw start limit stop stop
  | halfPointer {position stop : Nat} {octet : UInt8} (due : DueAt raw start limit position stop)
      (stands : raw[position]? = some octet) (bits : 192 ≤ octet.toNat)
      (ends : position + 1 = stop) : PassesEndAt raw start limit position stop
  | shortLabel {position stop : Nat} {octet : UInt8} (due : DueAt raw start limit position stop)
      (stands : raw[position]? = some octet) (bits : 0 < octet.toNat ∧ octet.toNat < 64)
      (inside : position + 1 ≤ stop) (passes : stop < position + 1 + octet.toNat) :
      PassesEndAt raw start limit (position + 1) stop

/-- A name has this defect at this position: a reserved length octet, or something that begins
there and passes the end of its window. -/
def DefectAt (raw : Octets) (start limit offset : Nat) : Defect → Prop
  | .reservedLength => ReservedAt raw start limit offset
  | .endOfInput => ∃ stop, PassesEndAt raw start limit offset stop

section Names

variable {raw : Octets} {start limit position stop offset : Nat} {defect : Defect} {run : Run}

/-- What is due lies in its window, or right behind it. -/
theorem DueAt.le (h : DueAt raw start limit position stop) : position ≤ stop := by
  induction h with
  | inline inside => exact inside
  | behind due stands bits inside ih => exact inside
  | target due stands bits low_stands inside target_lt ih => exact Nat.le_of_lt target_lt

/-- A window ends at the limit, or behind a pointer with the message. -/
theorem DueAt.stop_eq (h : DueAt raw start limit position stop) :
    stop = limit ∨ stop = raw.length := by
  induction h with
  | inline inside => exact .inl rfl
  | behind due stands bits inside ih => exact ih
  | target due stands bits low_stands inside target_lt ih => exact .inr rfl

/-- What passes the end begins in its window, or right behind it. -/
theorem PassesEndAt.bounds (h : PassesEndAt raw start limit offset stop) :
    offset ≤ stop ∧ (stop = limit ∨ stop = raw.length) := by
  cases h with
  | missing due => exact ⟨Nat.le_refl _, due.stop_eq⟩
  | halfPointer due stands bits ends => exact ⟨by omega, due.stop_eq⟩
  | shortLabel due stands bits inside passes => exact ⟨inside, due.stop_eq⟩

/-- A reserved length octet lies inside the message. -/
theorem ReservedAt.lt (h : ReservedAt raw start limit offset) : offset < raw.length := by
  obtain ⟨_, _, -, -, stands, -⟩ := h
  exact (List.getElem?_eq_some_iff.mp stands).1

/-- Where a length octet is due, a run that is broken in the window has its defect. -/
theorem DueAt.defectAt_of_brokenAt (hdue : DueAt raw start limit position stop)
    (h : Run.BrokenAt (raw.take stop) position offset defect) (hstop : stop ≤ raw.length) :
    DefectAt raw start limit offset defect := by
  have hlength : (raw.take stop).length = stop := by rw [List.length_take, Nat.min_eq_left hstop]
  have hstands {position : Nat} {octet : UInt8} (h : (raw.take stop)[position]? = some octet) :
      position < stop ∧ raw[position]? = some octet := by
    obtain ⟨hinside, -⟩ := List.getElem?_eq_some_iff.mp h
    rw [hlength] at hinside
    rw [List.getElem?_take_of_lt hinside] at h
    exact ⟨hinside, h⟩
  induction h with
  | missing ends =>
    have hle := hdue.le
    rw [hlength] at ends
    obtain rfl := Nat.le_antisymm hle ends
    exact ⟨_, .missing hdue⟩
  | reserved stands bits =>
    obtain ⟨hinside, hoctet⟩ := hstands stands
    exact ⟨stop, _, hdue, hinside, hoctet, bits⟩
  | halfPointer stands bits ends =>
    exact ⟨stop, .halfPointer hdue (hstands stands).2 bits (by omega)⟩
  | shortLabel stands bits ends =>
    obtain ⟨hinside, hoctet⟩ := hstands stands
    exact ⟨stop, .shortLabel hdue hoctet bits hinside (by omega)⟩
  | behind stands bits inside _ ih =>
    exact ih (hdue.behind (hstands stands).2 bits (by omega))

/-- Behind a complete run the name goes on at the target of its pointer. -/
theorem DueAt.of_liesIn {target : Nat} (hdue : DueAt raw start limit position stop)
    (h : run.LiesIn (raw.drop position)) (hend : position + run.size ≤ stop)
    (htarget : run.target = some target) (hinside : target < raw.length) :
    DueAt raw start limit target raw.length := by
  obtain ⟨labels, target'⟩ := run
  obtain rfl : target' = some target := htarget
  induction labels generalizing position with
  | nil =>
    obtain ⟨hwell, hwire⟩ := h
    have hbound := hwell.target_lt target rfl
    have hhigh : (UInt8.ofNat (192 + target / 256)).toNat = 192 + target / 256 :=
      UInt8.toNat_ofNat_of_lt' (by simp only [UInt8.size]; omega)
    have hlow : (UInt8.ofNat target).toNat = target % 256 := UInt8.toNat_ofNat'
    have hsplit : 192 + target / 256 - 192 = target / 256 := Nat.add_sub_cancel_left ..
    have hoctets : [UInt8.ofNat (192 + target / 256)] ++ [UInt8.ofNat target] <+:
        raw.drop position := hwire
    obtain ⟨hfirst, hsecond⟩ := Octets.append_prefix_drop_iff.mp hoctets
    have hnext := hdue.target (Octets.getElem?_of_prefix_drop hfirst) (by omega)
      (Octets.getElem?_of_prefix_drop hsecond) hend
    rw [hhigh, hlow, hsplit, Nat.div_add_mod'] at hnext
    exact hnext hinside
  | cons label labels ih =>
    change (Run.cons label ⟨labels, some target⟩).LiesIn (raw.drop position) at h
    change position + (Run.cons label ⟨labels, some target⟩).size ≤ stop at hend
    obtain ⟨hwell, hwire⟩ := h
    obtain ⟨hlabel, hothers⟩ := Run.wellFormed_cons.mp hwell
    have hoctet : (UInt8.ofNat label.length).toNat = label.length :=
      UInt8.toNat_ofNat_of_lt' (by simp only [UInt8.size]; omega)
    have hpos := (Run.mk labels (some target)).size_pos
    rw [Run.size_cons] at hend
    rw [Run.wire_cons, Octets.append_prefix_drop_iff] at hwire
    obtain ⟨hfront, hbehind⟩ := hwire
    have hnext := hdue.behind (Octets.getElem?_of_prefix_drop hfront) (by omega) (by omega)
    rw [hoctet] at hnext
    rw [Run.labelWire, List.length_cons, Nat.add_comm label.length, ← Nat.add_assoc] at hbehind
    exact ih hnext ⟨hothers, hbehind⟩ (by omega)

/-- Every station of the walk begins where a length octet is due. -/
theorem exists_dueAt_of_station? {here : Run} {n : Nat}
    (hstart : run.LiesIn (raw.between start limit)) (hlimit : limit ≤ raw.length)
    (h : station? raw run n = some here) :
    ∃ position stop, DueAt raw start limit position stop ∧ here.LiesIn (raw.drop position) ∧
      position + here.size ≤ stop := by
  induction n generalizing here with
  | zero =>
    cases h
    have hsize := hstart.size_le
    have hpos := run.size_pos
    rw [Octets.length_between] at hsize
    exact ⟨start, limit, .inline (by omega), hstart.of_between, by omega⟩
  | succ n ih =>
    obtain ⟨target, hpointer, hnext⟩ := station?_succ_eq_some_iff.mp h
    obtain ⟨last, hlast, htarget⟩ := Option.bind_eq_some_iff.mp hpointer
    obtain ⟨position, stop, hdue, hlies, hend⟩ := ih hlast
    have hsize := hnext.size_le
    have hpos := here.size_pos
    rw [List.length_drop] at hsize
    exact ⟨target, raw.length, hdue.of_liesIn hlies hend htarget (by omega), hnext, by omega⟩

/-- A name that is malformed behind a pointer has the defect that is reported. -/
theorem defectAt_of_resolve (hstart : run.LiesIn (raw.between start limit))
    (hlimit : limit ≤ raw.length) (h : run.resolve raw = .error (.malformed offset defect)) :
    DefectAt raw start limit offset defect := by
  obtain ⟨n, here, hn, hreaches, hends⟩ := exists_endsAt raw run
  rw [h] at hends
  cases hends with
  | @astray target fault points fits fresh hops leads =>
    obtain ⟨position, stop, hdue, hlies, hend⟩ :=
      exists_dueAt_of_station? hstart hlimit hreaches.stands
    obtain hfault | ⟨_, _, hinside, hbroken, hfault⟩ := eq_of_arrive_eq_error leads
    · cases hfault
    · cases hfault
      rw [← List.take_length (l := raw)] at hbroken
      exact (hdue.of_liesIn hlies hend points hinside).defectAt_of_brokenAt hbroken
        (Nat.le_refl _)

/-- A name that is malformed, in its window or behind a pointer, has the defect that is
reported. -/
theorem defectAt_of_readAt
    (h : DomainName.readAt raw start limit = .error (.malformed offset defect)) :
    DefectAt raw start (min limit raw.length) offset defect := by
  have hlimit := Nat.min_le_right limit raw.length
  obtain ⟨-, hfault⟩ | ⟨hinside, _, _, hbroken, hfault⟩ | ⟨run, hstands, hresolve⟩ :=
    DomainName.readAt_eq_error_iff.mp h
  · cases hfault
  · cases hfault
    exact (DueAt.inline hinside).defectAt_of_brokenAt hbroken hlimit
  · exact defectAt_of_resolve hstands hlimit hresolve

end Names

end Walk

/-- Of fields that stand in a row, the first is cut off, or it is complete and the others are. -/
theorem Octets.CutsAt.first_or_others {octets : Octets} {width : Nat} {widths : List Nat}
    {start offset : Nat} {defect : Defect} (h : octets.CutsAt (width :: widths) start offset defect)
    (hstart : start ≤ octets.length) :
    (offset = start ∧ octets.length < offset + width) ∨
      (start + width ≤ octets.length ∧ octets.CutsAt widths (start + width) offset defect) := by
  rw [CutsAt] at h
  split at h
  · exact .inr ⟨by omega, h⟩
  · exact .inl ⟨h.1, by omega⟩

namespace Envelope

/-- Framing comes to an item of a section at this position: the header and all items in front of it
are complete, and it is announced. -/
def ItemDueAt (raw : Octets) (part : Section) (start : Nat) : Prop :=
  ∃ (header : Header) (sizes : SectionSizes) (bodyAt : Nat) (body : Body Run),
    header.WrittenAt raw sizes 0 bodyAt ∧ body.WrittenAt raw (Run.StandsAt raw) bodyAt start ∧
      body.LacksItemOf sizes part

/-- The name of an item begins at this position, where framing comes to the item, or where it found
it in a complete frame. -/
inductive NameAt (raw : Octets) : Nat → Prop
  | due {part : Section} {start : Nat} (due : ItemDueAt raw part start) : NameAt raw start
  | laidOut {layout : Body Nat} {start : Nat} (laid : LaidOut raw layout)
      (mem : start ∈ layout.names) : NameAt raw start

/-- A field of this width begins at this position: a word of the header, or one of the fields
behind the name of an item. -/
inductive FieldAt (raw : Octets) : Nat → Nat → Prop
  | header {offset : Nat} (word : offset ∈ [0, 4, 6, 8, 10]) : FieldAt raw offset 2
  | type {part : Section} {start used : Nat} {run : Run} (due : ItemDueAt raw part start)
      (name : run.StandsAt raw start used) : FieldAt raw (start + used) 2
  | class {part : Section} {start used : Nat} {run : Run} (due : ItemDueAt raw part start)
      (name : run.StandsAt raw start used) : FieldAt raw (start + used + 2) 2
  | ttl {part : Section} {start used : Nat} {run : Run} (due : ItemDueAt raw part start)
      (record : part ≠ .question) (name : run.StandsAt raw start used) :
      FieldAt raw (start + used + 4) 4
  | rdlength {part : Section} {start used : Nat} {run : Run} (due : ItemDueAt raw part start)
      (record : part ≠ .question) (name : run.StandsAt raw start used) :
      FieldAt raw (start + used + 8) 2

/-- The data of a record begins at this position. -/
def DataAt (raw : Octets) (offset : Nat) : Prop :=
  ∃ (part : Section) (start used : Nat) (run : Run), ItemDueAt raw part start ∧
    part ≠ .question ∧ run.StandsAt raw start used ∧ offset = start + used + 10

/-- The frame passes the end of the message with what begins at this position. -/
inductive PassesEndAt (raw : Octets) : Nat → Prop
  /-- A name passes it. -/
  | name {start offset : Nat} (begins : NameAt raw start)
      (passes : Walk.PassesEndAt raw start raw.length offset raw.length) : PassesEndAt raw offset
  /-- Of the second word of the header, the octet at this position is the first that is missing. -/
  | word {offset : Nat} (second : offset = 2 ∨ offset = 3) (ends : raw.length = offset) :
      PassesEndAt raw offset
  /-- A field of fixed width passes it. -/
  | field {offset width : Nat} (begins : FieldAt raw offset width) (inside : offset ≤ raw.length)
      (passes : raw.length < offset + width) : PassesEndAt raw offset
  /-- Record data passes it, by the length that stands in the two octets in front of it. -/
  | data {offset : Nat} (begins : DataAt raw offset) (inside : offset ≤ raw.length)
      (passes : raw.length < offset + raw.number (offset - 2) 2) : PassesEndAt raw offset

/-- A frame has this defect at this position: a reserved length octet of a name, or something that
begins there and passes the end of the message. -/
def DefectAt (raw : Octets) (offset : Nat) : Defect → Prop
  | .reservedLength => ∃ start, NameAt raw start ∧ Walk.ReservedAt raw start raw.length offset
  | .endOfInput => PassesEndAt raw offset

section Frame

variable {raw : Octets} {start offset : Nat} {part : Section} {defect : Defect}

/-- The defect of a name of the frame is one of the frame. -/
theorem NameAt.defectAt (hname : NameAt raw start)
    (h : Walk.DefectAt raw start raw.length offset defect) : DefectAt raw offset defect := by
  cases defect with
  | endOfInput =>
    obtain ⟨stop, hpasses⟩ := h
    obtain ⟨-, hstop⟩ := hpasses.bounds
    obtain rfl : stop = raw.length := hstop.elim id id
    exact .name hname hpasses
  | reservedLength => exact ⟨start, hname, h⟩

/-- A header passes the end with the first of its fields that is cut off. -/
theorem passesEndAt_of_header (h : Header.BrokenAt raw 0 offset defect) :
    PassesEndAt raw offset := by
  have hword {offset : Nat} (hmem : offset ∈ [0, 4, 6, 8, 10]) (hinside : offset ≤ raw.length)
      (h : raw.length < offset + 2) : PassesEndAt raw offset := .field (.header hmem) hinside h
  obtain ⟨rfl, hcut⟩ | ⟨hle, h⟩ := h.first_or_others (Nat.zero_le _)
  · exact hword (by simp) (Nat.zero_le _) hcut
  obtain ⟨rfl, hcut⟩ | ⟨hle, h⟩ := h.first_or_others hle
  · exact .word (.inl rfl) (by omega)
  obtain ⟨rfl, hcut⟩ | ⟨hle, h⟩ := h.first_or_others hle
  · exact .word (.inr rfl) (by omega)
  obtain ⟨rfl, hcut⟩ | ⟨hle, h⟩ := h.first_or_others hle
  · exact hword (by simp) hle hcut
  obtain ⟨rfl, hcut⟩ | ⟨hle, h⟩ := h.first_or_others hle
  · exact hword (by simp) hle hcut
  obtain ⟨rfl, hcut⟩ | ⟨hle, h⟩ := h.first_or_others hle
  · exact hword (by simp) hle hcut
  obtain ⟨rfl, hcut⟩ | ⟨hle, h⟩ := h.first_or_others hle
  · exact hword (by simp) hle hcut
  · exact h.elim

/-- An item that is due begins in the message, or right behind it. -/
theorem ItemDueAt.le (h : ItemDueAt raw part start) : start ≤ raw.length := by
  obtain ⟨header, sizes, bodyAt, body, ⟨-, -, -, -, -, -, hend⟩, hbody, -⟩ := h
  exact (hbody.le hend).2

/-- A name that is broken where an item is due has its defect. -/
theorem ItemDueAt.defectAt_of_name (hdue : ItemDueAt raw part start)
    (h : Run.BrokenAt raw start offset defect) : DefectAt raw offset defect := by
  rw [← List.take_length (l := raw)] at h
  have hinline : Walk.DueAt raw start raw.length start raw.length := .inline hdue.le
  exact (NameAt.due hdue).defectAt (hinline.defectAt_of_brokenAt h (Nat.le_refl _))

/-- Behind the name of an item that is due, one of its two codes passes the end, or both are
complete and what follows them is cut off. -/
theorem ItemDueAt.codes_or_others {used : Nat} {run : Run} {widths : List Nat}
    (hdue : ItemDueAt raw part start) (hname : run.StandsAt raw start used)
    (h : raw.CutsAt (2 :: 2 :: widths) (start + used) offset defect) :
    PassesEndAt raw offset ∨
      (start + used + 4 ≤ raw.length ∧ raw.CutsAt widths (start + used + 4) offset defect) := by
  obtain ⟨rfl, hcut⟩ | ⟨hle, h⟩ := h.first_or_others hname.le
  · exact .inl (.field (.type hdue hname) hname.le hcut)
  obtain ⟨rfl, hcut⟩ | ⟨hle, h⟩ := h.first_or_others hle
  · exact .inl (.field (.class hdue hname) hle hcut)
  · exact .inr ⟨hle, h⟩

/-- A record that is due passes the end behind its name with the first field that is cut off, or
with its data. -/
theorem ItemDueAt.passesEndAt_of_record {used : Nat} {run : Run} (hdue : ItemDueAt raw part start)
    (hpart : part ≠ .question) (hname : run.StandsAt raw start used)
    (h : raw.CutsAt [2, 2, 4, 2, raw.number (start + used + 8) 2] (start + used) offset defect) :
    PassesEndAt raw offset := by
  obtain hcode | ⟨hle, h⟩ := hdue.codes_or_others hname h
  · exact hcode
  obtain ⟨rfl, hcut⟩ | ⟨hle, h⟩ := h.first_or_others hle
  · exact .field (.ttl hdue hpart hname) hle hcut
  obtain ⟨rfl, hcut⟩ | ⟨hle, h⟩ := h.first_or_others hle
  · exact .field (.rdlength hdue hpart hname) hle hcut
  obtain ⟨rfl, hcut⟩ | ⟨hle, h⟩ := h.first_or_others hle
  · exact .data ⟨part, start, used, run, hdue, hpart, hname, rfl⟩ hle hcut
  · exact h.elim

/-- An item that is broken where it is due has its defect. -/
theorem ItemDueAt.defectAt (hdue : ItemDueAt raw part start)
    (h : part.ItemBrokenAt raw start offset defect) : DefectAt raw offset defect := by
  have hrecord (hpart : part ≠ .question) (h : Record.BrokenAt raw start offset defect) :
      DefectAt raw offset defect := by
    obtain hbroken | ⟨run, used, hname, hcuts⟩ := h
    · exact hdue.defectAt_of_name hbroken
    · obtain rfl := hcuts.defect_eq
      exact hdue.passesEndAt_of_record hpart hname hcuts
  cases part with
  | question =>
    obtain hbroken | ⟨run, used, hname, hcuts⟩ := h
    · exact hdue.defectAt_of_name hbroken
    · obtain rfl := hcuts.defect_eq
      exact (hdue.codes_or_others hname hcuts).resolve_right fun h => h.2
  | answer => exact hrecord (by decide) h
  | authority => exact hrecord (by decide) h
  | additional => exact hrecord (by decide) h

/-- A frame that is broken has its defect. -/
theorem BrokenAt.defectAt (h : Envelope.BrokenAt raw 0 offset defect) :
    DefectAt raw offset defect := by
  obtain hheader | ⟨header, sizes, bodyAt, hheader, body, part, start, hbody, hlacks, hitem⟩ := h
  · obtain rfl := hheader.defect_eq
    exact passesEndAt_of_header hheader
  · exact ItemDueAt.defectAt ⟨header, sizes, bodyAt, body, hheader, hbody, hlacks⟩ hitem

/-- What passes the end of the message begins in it, or right behind it. -/
theorem PassesEndAt.le (h : PassesEndAt raw offset) : offset ≤ raw.length := by
  cases h with
  | name begins passes => exact passes.bounds.1
  | word second ends => exact Nat.le_of_eq ends.symm
  | field begins inside passes => exact inside
  | data begins inside passes => exact inside

end Frame

end Envelope

namespace Message

variable {raw : Octets} {message : Message} {offset : Nat} {defect : Defect}

/-- A message that is malformed has the defect that is reported. -/
theorem defectAt_of_parse (h : parse raw = .error (.malformed offset defect)) :
    Envelope.DefectAt raw offset defect := by
  obtain ⟨_, _, hbroken, hfault⟩ | ⟨layout, hlaid, start, hstart, hname⟩ :=
    brokenAt_or_readAt_of_parse h
  · cases hfault
    exact hbroken.defectAt
  · have hdefect := Walk.defectAt_of_readAt hname
    rw [Nat.min_self] at hdefect
    exact (Envelope.NameAt.laidOut hlaid hstart).defectAt hdefect

/-- A name that is malformed has the defect that is reported. -/
theorem defectAt_of_nameAt {start limit : Nat}
    (h : message.nameAt start limit = .error (.malformed offset defect)) :
    Walk.DefectAt message.raw start (min limit message.raw.length) offset defect := by
  rw [nameAt_eq_map, map_eq_error_iff] at h
  exact Walk.defectAt_of_readAt h

/-- Every position that is reported is the place of the defect. A reserved length octet stands
right there, where the walk of a name comes upon it. What passes the end begins right there, not
behind that end: in a frame a name, a field or record data, and the end is that of the message; in
a name that is read at an offset also what the limit cuts off, but behind a pointer the limit no
longer matters. -/
theorem malformed_at_defect :
    (∀ (raw : Octets) (offset : Nat) (defect : Defect),
      parse raw = .error (.malformed offset defect) →
        (defect = .reservedLength ∧ offset < raw.length ∧
          ∃ start, Envelope.NameAt raw start ∧ Walk.ReservedAt raw start raw.length offset) ∨
        (defect = .endOfInput ∧ offset ≤ raw.length ∧ Envelope.PassesEndAt raw offset)) ∧
    ∀ (message : Message) (start limit offset : Nat) (defect : Defect),
      message.nameAt start limit = .error (.malformed offset defect) →
        (defect = .reservedLength ∧ offset < message.raw.length ∧
          Walk.ReservedAt message.raw start (min limit message.raw.length) offset) ∨
        (defect = .endOfInput ∧ ∃ stop,
          (stop = min limit message.raw.length ∨ stop = message.raw.length) ∧ offset ≤ stop ∧
            Walk.PassesEndAt message.raw start (min limit message.raw.length) offset stop) := by
  refine ⟨fun raw offset defect h => ?_, fun message start limit offset defect h => ?_⟩
  · have hdefect := defectAt_of_parse h
    cases defect with
    | endOfInput => exact .inr ⟨rfl, hdefect.le, hdefect⟩
    | reservedLength =>
      obtain ⟨start, hname, hreserved⟩ := hdefect
      exact .inl ⟨rfl, hreserved.lt, start, hname, hreserved⟩
  · have hdefect := defectAt_of_nameAt h
    cases defect with
    | endOfInput =>
      obtain ⟨stop, hpasses⟩ := hdefect
      obtain ⟨hinside, hstop⟩ := hpasses.bounds
      exact .inr ⟨rfl, stop, hstop, hinside, hpasses⟩
    | reservedLength => exact .inl ⟨rfl, hdefect.lt, hdefect⟩

/-- A question whose name goes on, behind a label, with a reserved length octet. -/
def reservedWire : Octets := [0, 1, 0, 0, 0, 1, 0, 0, 0, 0, 0, 0, 1, 97, 0x40]

/-- A record with two octets of data where three are announced. -/
def shortDataWire : Octets :=
  [0, 1, 0, 0, 0, 0, 0, 1, 0, 0, 0, 0, 0, 0, 1, 0, 1, 0, 0, 0, 0, 0, 3, 97, 98]

set_option maxRecDepth 1000 in
/-- The reserved octet and the data are reported where they begin. In `sharedSuffix`, whose name
at 5 has its pointer at 7, a limit of 8 is passed by that pointer. -/
theorem malformed_reservedWire :
    parse reservedWire = .error (.malformed 14 .reservedLength) ∧
      (∃ start, Envelope.NameAt reservedWire start ∧ Walk.ReservedAt reservedWire start 15 14) ∧
      parse shortDataWire = .error (.malformed 23 .endOfInput) ∧
      Envelope.PassesEndAt shortDataWire 23 ∧
      sharedSuffix.nameAt 5 8 = .error (.malformed 7 .endOfInput) ∧
      ∃ stop, 7 ≤ stop ∧ Walk.PassesEndAt sharedSuffix.raw 5 8 7 stop := by
  obtain ⟨hframe, hname⟩ := malformed_at_defect
  have hreserved : parse reservedWire = .error (.malformed 14 .reservedLength) := by
    with_unfolding_all rfl
  have hdata : parse shortDataWire = .error (.malformed 23 .endOfInput) := by
    with_unfolding_all rfl
  have hlimit : sharedSuffix.nameAt 5 8 = .error (.malformed 7 .endOfInput) := by
    with_unfolding_all rfl
  obtain ⟨-, -, hoctet⟩ := (hframe _ _ _ hreserved).resolve_right fun h => nomatch h.1
  obtain ⟨-, -, hrdata⟩ := (hframe _ _ _ hdata).resolve_left fun h => nomatch h.1
  obtain ⟨-, stop, -, hinside, hpointer⟩ :=
    (hname _ _ _ _ _ hlimit).resolve_left fun h => nomatch h.1
  exact ⟨hreserved, hoctet, hdata, hrdata, hlimit, stop, hinside, hpointer⟩

end Message

end DnsTrace
