import DnsTrace.RecordData
import DnsTrace.Proofs.Cursor
import DnsTrace.Proofs.Message.Tiling
import DnsTrace.Proofs.Name.Transfer

/-!
# The grammar of record data

Each decoded type has its own grammar: an address is so many octets, other data are names and
numbers in a row. `Record.Says` states the grammars over octets and a relation that tells which
name stands where, so that the same statement can be made of the data alone and of the message
that holds it. Decoding yields exactly what the data says, and its length where it says nothing.

Names are read in the message and everything else in the data. Both agree because the data of
a record is the slice of the message at its offset, and because a name that is read before the
end of the data takes as many octets in either.
-/

namespace DnsTrace

namespace Octets

/-- A slice of a slice is a slice of the whole. -/
theorem slice_slice {octets : Octets} {offset n start m : Nat} (h : start + m ≤ n) :
    (octets.slice offset n).slice start m = octets.slice (offset + start) m := by
  rw [slice, slice, slice, List.drop_take, List.drop_drop, List.take_take,
    Nat.min_eq_left (by omega)]

/-- The slice from the first octet on is the front. -/
theorem slice_zero (octets : Octets) (n : Nat) : octets.slice 0 n = octets.take n := by
  rw [slice, List.drop_zero]

/-- Octets with the same slice have the same number inside it. -/
theorem number_eq_of_slice {octets other : Octets} {offset offset' n : Nat}
    (h : other.slice offset' n = octets.slice offset n) (start width : Nat)
    (hwidth : start + width ≤ n) :
    other.number (offset' + start) width = octets.number (offset + start) width := by
  rw [number, number, ← slice_slice hwidth, ← slice_slice hwidth, h]

/-- Zeros stand behind the octets that are there, up to the number asked for. -/
theorem toList_padded_eq_take (n : Nat) (octets : Octets) :
    (padded n octets).toList = (octets ++ List.replicate n 0).take n := by
  rw [padded, Vector.toList_ofFn]
  apply List.ext_getElem?
  intro i
  by_cases hi : i < n
  · rw [List.getElem?_ofFn, dif_pos hi, List.getElem?_take, if_pos hi,
      List.getD_eq_getElem?_getD]
    dsimp only
    by_cases hpresent : i < octets.length
    · rw [List.getElem?_append_left hpresent, List.getElem?_eq_getElem hpresent, Option.getD_some]
    · rw [List.getElem?_append_right (by omega), List.getElem?_replicate, if_pos (by omega),
        List.getElem?_eq_none (by omega), Option.getD_none]
  · rw [List.getElem?_ofFn, dif_neg hi, List.getElem?_take, if_neg hi]

/-- Octets that are all there need no padding. -/
theorem toList_padded {n : Nat} {octets : Octets} (h : octets.length = n) :
    (padded n octets).toList = octets := by
  rw [toList_padded_eq_take, List.take_left' h]

end Octets

/-- The types whose data is decoded. -/
def RRType.decoded : List RRType := [.a, .ns, .cname, .soa, .ptr, .mx, .aaaa, .opt]

/-- The five numbers of a zone stand one behind the other from an offset on. -/
structure StartOfAuthority.SpelledAt (octets : Octets) (offset : Nat)
    (authority : StartOfAuthority) : Prop where
  serial : authority.serial.toNat = octets.number offset 4
  refresh : authority.refresh.toNat = octets.number (offset + 4) 4
  retry : authority.retry.toNat = octets.number (offset + 8) 4
  expire : authority.expire.toNat = octets.number (offset + 12) 4
  minimum : authority.minimum.toNat = octets.number (offset + 16) 4

namespace Record

/-- The data of a record, which is written in `octets` from `start` on, says this in its first
octets, as many as the last argument tells. `Named` relates names to their positions in the
data and to the octets that they take there. -/
inductive Says (octets : Octets) (start : Nat) (Named : String → Nat → Nat → Prop)
    (record : Record String) : RecordData → Nat → Prop
  | a {address : IPv4} (type : record.rrType = .a) (room : 4 ≤ record.rdlength)
      (spelled : address.octets.toList = octets.slice start 4) :
      Says octets start Named record (.a address) 4
  | aaaa {address : IPv6} (type : record.rrType = .aaaa) (room : 16 ≤ record.rdlength)
      (spelled : address.octets.toList = octets.slice start 16) :
      Says octets start Named record (.aaaa address) 16
  | name {target : String} {used : Nat}
      (type : record.rrType = .ns ∨ record.rrType = .ptr ∨ record.rrType = .cname)
      (named : Named target 0 used) : Says octets start Named record (.name target) used
  | mx {preference : UInt16} {exchange : String} {used : Nat} (type : record.rrType = .mx)
      (room : 2 ≤ record.rdlength) (spelled : preference.toNat = octets.number start 2)
      (named : Named exchange 2 used) :
      Says octets start Named record (.mx preference exchange) (2 + used)
  | soa {authority : StartOfAuthority} {first second : Nat} (type : record.rrType = .soa)
      (primary : Named authority.primary 0 first) (mailbox : Named authority.mailbox first second)
      (room : first + second + 20 ≤ record.rdlength)
      (spelled : authority.SpelledAt octets (start + (first + second))) :
      Says octets start Named record (.soa authority) (first + second + 20)
  | opt {edns : Edns} (type : record.rrType = .opt) (read : Edns.ofRecord record = .ok edns) :
      Says octets start Named record (.opt edns) record.rdlength

/-- The name at a position of the record's data and the octets that it takes there. It ends
inside the data; its pointers may lead anywhere in the message. -/
def Embeds (record : Record String) (message : Message) (name : String) (position used : Nat) :
    Prop :=
  message.nameAt (record.rdataOffset + position) (record.rdataOffset + record.rdlength) =
    .ok (name, used)

/-- An embedded name takes room inside the data. -/
theorem Embeds.le {record : Record String} {message : Message} {name : String}
    {position used : Nat} (h : record.Embeds message name position used) :
    0 < used ∧ position + used ≤ record.rdlength := by
  obtain ⟨hpos, hlimit, -⟩ := Message.used_of_nameAt h
  omega

/-- What is said takes at most as many octets as the data has. -/
theorem Says.size_le {octets : Octets} {start : Nat} {Named : String → Nat → Nat → Prop}
    {record : Record String} {data : RecordData} {size : Nat}
    (h : record.Says octets start Named data size)
    (hnamed : ∀ name position used, Named name position used →
      position + used ≤ record.rdlength) : size ≤ record.rdlength := by
  cases h with
  | a _ room => exact room
  | aaaa _ room => exact room
  | name _ named =>
    have hused := hnamed _ _ _ named
    omega
  | mx _ _ _ named => exact hnamed _ _ _ named
  | soa _ _ _ room => exact room
  | opt => exact Nat.le_refl _

/-- What is said stays so when more names are known. -/
theorem Says.imp {octets : Octets} {start : Nat} {Named Named' : String → Nat → Nat → Prop}
    {record : Record String} {data : RecordData} {size : Nat}
    (h : record.Says octets start Named data size)
    (hnamed : ∀ name position used, Named name position used → Named' name position used) :
    record.Says octets start Named' data size := by
  cases h with
  | a type room spelled => exact .a type room spelled
  | aaaa type room spelled => exact .aaaa type room spelled
  | name type named => exact .name type (hnamed _ _ _ named)
  | mx type room spelled named => exact .mx type room spelled (hnamed _ _ _ named)
  | soa type primary mailbox room spelled =>
    exact .soa type (hnamed _ _ _ primary) (hnamed _ _ _ mailbox) room spelled
  | opt type read => exact .opt type read

/-- The same is said by every record of the type that has the same octets in front, whatever
its other data, when the names in these octets are the same. EDNS data is taken as a whole. -/
theorem Says.transfer {octets octets' : Octets} {start start' : Nat}
    {Named Named' : String → Nat → Nat → Prop} {record record' : Record String}
    {data : RecordData} {size : Nat} (h : record.Says octets start Named data size)
    (htype : record'.rrType = record.rrType) (hopt : record.rrType ≠ .opt)
    (hslice : octets'.slice start' size = octets.slice start size)
    (hroom : size ≤ record'.rdlength)
    (hnamed : ∀ name position used, position + used ≤ size → Named name position used →
      Named' name position used) :
    record'.Says octets' start' Named' data size := by
  cases h with
  | a type room spelled =>
    exact .a (htype.trans type) hroom (spelled.trans hslice.symm)
  | aaaa type room spelled =>
    exact .aaaa (htype.trans type) hroom (spelled.trans hslice.symm)
  | name type named =>
    rw [← htype] at type
    apply Says.name type
    apply hnamed _ _ _ _ named
    omega
  | @mx preference exchange used type room spelled named =>
    have hpreference := Octets.number_eq_of_slice hslice 0 2 (by omega)
    exact .mx (htype.trans type) (by omega) (spelled.trans hpreference.symm)
      (hnamed _ _ _ (Nat.le_refl _) named)
  | @soa authority first second type primary mailbox room spelled =>
    have hnumber (q : Nat) (hq : q + 4 ≤ 20) :
        octets'.number (start' + (first + second) + q) 4 =
          octets.number (start + (first + second) + q) 4 := by
      rw [Nat.add_assoc, Nat.add_assoc start]
      exact Octets.number_eq_of_slice hslice _ 4 (by omega)
    have hspelled : authority.SpelledAt octets' (start' + (first + second)) :=
      { serial := spelled.serial.trans (hnumber 0 (by omega)).symm
        refresh := spelled.refresh.trans (hnumber 4 (by omega)).symm
        retry := spelled.retry.trans (hnumber 8 (by omega)).symm
        expire := spelled.expire.trans (hnumber 12 (by omega)).symm
        minimum := spelled.minimum.trans (hnumber 16 (by omega)).symm }
    exact .soa (htype.trans type) (hnamed _ _ _ (by omega) primary)
      (hnamed _ _ _ (by omega) mailbox) hroom hspelled
  | opt type => exact absurd type hopt

section Decoding

variable {record : Record String} {message : Message} {data : RecordData}

/-- A name is read at a cursor as it is read in the message, and the cursor then stands behind it.
Passing over it never fails, because a name that is read ends inside the data. -/
theorem embeddedName_within (record : Record String) (message : Message) (position : Nat) :
    record.embeddedName message (.within record.rdata position) =
      (message.nameAt (record.rdataOffset + position)
        (record.rdataOffset + record.rdlength)).map
          fun found => (found.1, .within record.rdata (position + found.2)) := by
  rw [embeddedName, Cursor.within]
  cases hname : message.nameAt (record.rdataOffset + position)
      (record.rdataOffset + record.rdlength) with
  | error fault => rfl
  | ok found =>
    obtain ⟨name, used⟩ := found
    have hembeds : record.Embeds message name position used := hname
    obtain ⟨hpos, hinside⟩ := hembeds.le
    have hskip := Cursor.skip_within record.rdata hpos hinside
    rw [Cursor.within] at hskip
    simp only [bind, Except.bind, hskip]
    rfl

/-- The cursor and the message are in step: a name is read at a cursor exactly where it is
embedded, and the cursor then stands behind it. -/
theorem embeddedName_reads (record : Record String) (message : Message) :
    Cursor.Reads record.rdata (record.embeddedName message) fun name start stop =>
      ∃ used, record.Embeds message name start used ∧ stop = start + used := by
  intro start name next
  rw [embeddedName_within, map_eq_ok_iff]
  constructor
  · intro h
    obtain ⟨⟨name', used⟩, hname, hfound⟩ := h
    cases hfound
    exact ⟨_, ⟨used, hname, rfl⟩, rfl⟩
  · intro h
    obtain ⟨stop, ⟨used, hname, rfl⟩, rfl⟩ := h
    exact ⟨(name, used), hname, rfl⟩

/-- An address is as many octets as its family needs. -/
theorem bytes_padded_eq_ok_iff {n : Nat} (hn : 0 < n) (rdata : Octets)
    (address : Vector UInt8 n → RecordData) :
    ((Cursor.start rdata).bytes n >>= fun taken => pure (address (Octets.padded n taken.1))) =
        .ok data ↔
      ∃ octets : Vector UInt8 n, n ≤ rdata.length ∧ octets.toList = rdata.slice 0 n ∧
        data = address octets := by
  rw [Cursor.start_eq_within, bind_eq_ok_iff]
  constructor
  · intro h
    obtain ⟨⟨octets, next⟩, hread, hpure⟩ := h
    obtain ⟨stop, ⟨rfl, rfl, hfits⟩, rfl⟩ := (Cursor.Reads.bytes hn _ _ _).mp hread
    cases hpure
    have hlength : (rdata.slice 0 n).length = n := by
      rw [Octets.length_slice]
      omega
    exact ⟨_, by omega, Octets.toList_padded hlength, rfl⟩
  · intro h
    obtain ⟨octets, hfits, hspelled, rfl⟩ := h
    have hread : (Cursor.within rdata 0).bytes n = .ok (rdata.slice 0 n, .within rdata (0 + n)) :=
      (Cursor.Reads.bytes hn _ _ _).mpr ⟨_, ⟨rfl, rfl, by omega⟩, rfl⟩
    refine ⟨_, hread, ?_⟩
    have hlength : (rdata.slice 0 n).length = n := by
      rw [Octets.length_slice]
      omega
    have hpadded : Octets.padded n (rdata.slice 0 n) = octets := by
      apply Vector.toList_inj.mp
      rw [Octets.toList_padded hlength, hspelled]
    rw [hpadded]
    rfl

/-- A single name is read from the first octet of the data on. -/
theorem readTarget_eq_ok_iff :
    record.readTarget message = .ok data ↔
      ∃ target used, record.Embeds message target 0 used ∧ data = .name target := by
  rw [readTarget, Cursor.start_eq_within, bind_eq_ok_iff]
  constructor
  · intro h
    obtain ⟨⟨target, next⟩, hread, hpure⟩ := h
    obtain ⟨stop, ⟨used, hname, -⟩, -⟩ := (embeddedName_reads record message _ _ _).mp hread
    cases hpure
    exact ⟨target, used, hname, rfl⟩
  · intro h
    obtain ⟨target, used, hname, rfl⟩ := h
    exact ⟨_, (embeddedName_reads record message _ _ _).mpr ⟨_, ⟨used, hname, rfl⟩, rfl⟩, rfl⟩

/-- A mail exchange is a number of two octets and a name behind it. -/
theorem readMX_eq_ok_iff :
    record.readMX message = .ok data ↔
      ∃ preference exchange used, 2 ≤ record.rdlength ∧
        preference.toNat = record.rdata.number 0 2 ∧
        record.Embeds message exchange 2 used ∧ data = .mx preference exchange := by
  rw [readMX, Cursor.start_eq_within, bind_eq_ok_iff]
  constructor
  · intro h
    obtain ⟨⟨preference, middle⟩, hpreference, h⟩ := h
    obtain ⟨stop, ⟨rfl, rfl, hfits⟩, rfl⟩ := (Cursor.Reads.read16 _ _ _).mp hpreference
    obtain ⟨⟨exchange, next⟩, hread, hpure⟩ := bind_eq_ok_iff.mp h
    obtain ⟨stop, ⟨used, hname, -⟩, -⟩ := (embeddedName_reads record message _ _ _).mp hread
    cases hpure
    exact ⟨_, exchange, used, hfits, Octets.toNat_ofNat_number_two _ _, hname, rfl⟩
  · intro h
    obtain ⟨preference, exchange, used, hroom, hpreference, hname, rfl⟩ := h
    have hfirst := Cursor.read16_of_toNat_eq hpreference (by
      rw [Nat.zero_add]
      exact hroom)
    have hsecond := (embeddedName_reads record message 2 exchange _).mpr
      ⟨2 + used, ⟨used, hname, rfl⟩, rfl⟩
    exact ⟨_, hfirst, bind_eq_ok_iff.mpr ⟨_, hsecond, rfl⟩⟩

/-- The data of a zone is two names and, behind them, twenty octets of numbers. -/
theorem readSOA_eq_ok_iff :
    record.readSOA message = .ok data ↔
      ∃ (authority : StartOfAuthority) (first second : Nat),
        record.Embeds message authority.primary 0 first ∧
        record.Embeds message authority.mailbox first second ∧
        first + second + 20 ≤ record.rdlength ∧
        authority.SpelledAt record.rdata (first + second) ∧ data = .soa authority := by
  rw [readSOA, Cursor.start_eq_within]
  simp only [bind_eq_ok_iff]
  constructor
  · intro h
    obtain ⟨⟨primary, _⟩, hprimary, ⟨mailbox, _⟩, hmailbox, _, -, h⟩ := h
    obtain ⟨_, ⟨first, hfirst, rfl⟩, rfl⟩ := (embeddedName_reads record message _ _ _).mp hprimary
    rw [Nat.zero_add] at hmailbox
    obtain ⟨_, ⟨second, hsecond, rfl⟩, rfl⟩ := (embeddedName_reads record message _ _ _).mp hmailbox
    obtain ⟨⟨serial, _⟩, h₁, ⟨refresh, _⟩, h₂, ⟨retry, _⟩, h₃, ⟨expire, _⟩, h₄, h⟩ := h
    obtain ⟨⟨minimum, _⟩, h₅, hpure⟩ := h
    obtain ⟨_, ⟨rfl, rfl, -⟩, rfl⟩ := (Cursor.Reads.read32 _ _ _).mp h₁
    obtain ⟨_, ⟨rfl, rfl, -⟩, rfl⟩ := (Cursor.Reads.read32 _ _ _).mp h₂
    obtain ⟨_, ⟨rfl, rfl, -⟩, rfl⟩ := (Cursor.Reads.read32 _ _ _).mp h₃
    obtain ⟨_, ⟨rfl, rfl, -⟩, rfl⟩ := (Cursor.Reads.read32 _ _ _).mp h₄
    obtain ⟨_, ⟨rfl, rfl, hroom⟩, rfl⟩ := (Cursor.Reads.read32 _ _ _).mp h₅
    cases hpure
    refine ⟨_, first, second, hfirst, hsecond, hroom, ?_, rfl⟩
    exact
      { serial := Octets.toNat_ofNat_number_four _ _
        refresh := Octets.toNat_ofNat_number_four _ _
        retry := Octets.toNat_ofNat_number_four _ _
        expire := Octets.toNat_ofNat_number_four _ _
        minimum := Octets.toNat_ofNat_number_four _ _ }
  · intro h
    obtain ⟨authority, first, second, hfirst, hsecond, hroom, hspelled, rfl⟩ := h
    have hprimary := (embeddedName_reads record message 0 authority.primary _).mpr
      ⟨0 + first, ⟨first, hfirst, rfl⟩, rfl⟩
    have hmailbox := (embeddedName_reads record message first authority.mailbox _).mpr
      ⟨first + second, ⟨second, hsecond, rfl⟩, rfl⟩
    have hlength : first + second + 20 ≤ record.rdata.length := hroom
    have hensure := (Cursor.ensure_within_eq_ok_iff record.rdata (first + second) 20).mpr
      (by omega)
    rw [Nat.zero_add] at hprimary
    exact ⟨_, hprimary, _, hmailbox, _, hensure,
      _, Cursor.read32_of_toNat_eq hspelled.serial (by omega),
      _, Cursor.read32_of_toNat_eq hspelled.refresh (by omega),
      _, Cursor.read32_of_toNat_eq hspelled.retry (by omega),
      _, Cursor.read32_of_toNat_eq hspelled.expire (by omega),
      _, Cursor.read32_of_toNat_eq hspelled.minimum (by omega), rfl⟩

/-- Decoding yields what the data says, and the length of data of any other type. -/
theorem decode_eq_ok_iff :
    record.decode message = .ok data ↔
      (∃ size, record.Says record.rdata 0 (record.Embeds message) data size) ∨
        record.rrType ∉ RRType.decoded ∧ data = .undecoded record.rdlength := by
  constructor
  · intro h
    unfold decode at h
    split at h
    case h_1 htype =>
      obtain ⟨authority, first, second, hfirst, hsecond, hroom, hspelled, rfl⟩ :=
        readSOA_eq_ok_iff.mp h
      rw [← Nat.zero_add (first + second)] at hspelled
      exact .inl ⟨_, .soa htype hfirst hsecond hroom hspelled⟩
    case h_2 htype =>
      obtain ⟨octets, hroom, hspelled, rfl⟩ :=
        (bytes_padded_eq_ok_iff (by decide) record.rdata fun octets => .a ⟨octets⟩).mp h
      exact .inl ⟨_, .a htype hroom hspelled⟩
    case h_3 htype =>
      obtain ⟨octets, hroom, hspelled, rfl⟩ :=
        (bytes_padded_eq_ok_iff (by decide) record.rdata fun octets => .aaaa ⟨octets⟩).mp h
      exact .inl ⟨_, .aaaa htype hroom hspelled⟩
    case h_4 htype =>
      obtain ⟨preference, exchange, used, hroom, hspelled, hname, rfl⟩ := readMX_eq_ok_iff.mp h
      exact .inl ⟨_, .mx htype hroom hspelled hname⟩
    case h_5 htype =>
      obtain ⟨target, used, hname, rfl⟩ := readTarget_eq_ok_iff.mp h
      exact .inl ⟨_, .name (.inl htype) hname⟩
    case h_6 htype =>
      obtain ⟨target, used, hname, rfl⟩ := readTarget_eq_ok_iff.mp h
      exact .inl ⟨_, .name (.inr (.inl htype)) hname⟩
    case h_7 htype =>
      obtain ⟨target, used, hname, rfl⟩ := readTarget_eq_ok_iff.mp h
      exact .inl ⟨_, .name (.inr (.inr htype)) hname⟩
    case h_8 htype =>
      obtain ⟨edns, hread, rfl⟩ := map_eq_ok_iff.mp h
      exact .inl ⟨_, .opt htype hread⟩
    case h_9 =>
      cases h
      right
      simp_all [RRType.decoded]
  · intro h
    rcases h with ⟨size, h⟩ | ⟨htype, rfl⟩
    · cases h with
      | @a address type room spelled =>
        rw [decode, type]
        exact (bytes_padded_eq_ok_iff (by decide) record.rdata fun octets => .a ⟨octets⟩).mpr
          ⟨address.octets, room, spelled, rfl⟩
      | @aaaa address type room spelled =>
        rw [decode, type]
        exact (bytes_padded_eq_ok_iff (by decide) record.rdata fun octets => .aaaa ⟨octets⟩).mpr
          ⟨address.octets, room, spelled, rfl⟩
      | name type named =>
        rcases type with type | type | type <;> rw [decode, type] <;>
          exact readTarget_eq_ok_iff.mpr ⟨_, _, named, rfl⟩
      | mx type room spelled named =>
        rw [decode, type]
        exact readMX_eq_ok_iff.mpr ⟨_, _, _, room, spelled, named, rfl⟩
      | soa type primary mailbox room spelled =>
        rw [decode, type]
        rw [Nat.zero_add] at spelled
        exact readSOA_eq_ok_iff.mpr ⟨_, _, _, primary, mailbox, room, spelled, rfl⟩
      | opt type read =>
        rw [decode, type, read]
        rfl
    · unfold decode
      split <;> simp_all [RRType.decoded]

end Decoding

end Record

end DnsTrace
