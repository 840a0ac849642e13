import DnsTrace.Proofs.Message.Appending
import DnsTrace.Proofs.Message.Faults

/-!
# Messages that are cut off

A cut leaves everything in front of it as it was. So what framing meets in the front of a
message it also meets in the whole: the same items as long as they end before the cut, and a
length octet with reserved bits only where the whole message has one. A message that is cut off
inside its items is therefore refused for the cut and for nothing else.

Octets behind the items matter to pointers only. A cut among them leaves the frame complete, and
what can fail then is a name that a pointer continues behind the cut.
-/

namespace DnsTrace

namespace Octets

/-- Fields are defective for their length only. -/
theorem CutsAt.defect_eq {octets : Octets} {widths : List Nat} {start offset : Nat}
    {defect : Defect} (h : octets.CutsAt widths start offset defect) : defect = .endOfInput := by
  induction widths generalizing start with
  | nil => exact h.elim
  | cons width widths ih =>
    rw [CutsAt] at h
    split at h
    · exact ih h
    · exact h.2

/-- A field that is cut off begins inside the octets. -/
theorem CutsAt.offset_le {octets : Octets} {widths : List Nat} {start offset : Nat}
    {defect : Defect} (h : octets.CutsAt widths start offset defect)
    (hstart : start ≤ octets.length) : offset ≤ octets.length := by
  induction widths generalizing start with
  | nil => exact h.elim
  | cons width widths ih =>
    rw [CutsAt] at h
    split at h
    · exact ih h (by omega)
    · rw [h.1]
      exact hstart

end Octets

section Cut

variable {raw : Octets} {start stop offset used : Nat} {defect : Defect}

namespace Run

/-- A run that stands ends inside the octets. -/
theorem StandsAt.le {run : Run} (h : run.StandsAt raw start used) : start + used ≤ raw.length := by
  obtain ⟨hlies, rfl⟩ := h
  have hsize := hlies.size_le
  have hpos := run.size_pos
  rw [List.length_drop] at hsize
  omega

/-- A run that ends inside the octets stands in them exactly when it stands in what continues
them. -/
theorem standsAt_append_iff {run : Run} (more : Octets) (h : start + used ≤ raw.length) :
    run.StandsAt (raw ++ more) start used ↔ run.StandsAt raw start used := by
  constructor
  · rintro ⟨hlies, rfl⟩
    exact ⟨hlies.of_slice (Octets.slice_append h more).symm, rfl⟩
  · rintro ⟨hlies, rfl⟩
    exact ⟨hlies.of_slice (Octets.slice_append h more), rfl⟩

/-- A defect of a run lies inside the octets, or right behind them. -/
theorem BrokenAt.offset_le (h : BrokenAt raw start offset defect) (hstart : start ≤ raw.length) :
    offset ≤ raw.length := by
  induction h with
  | missing => exact hstart
  | reserved => exact hstart
  | halfPointer => exact hstart
  | shortLabel stands =>
    obtain ⟨hinside, -⟩ := List.getElem?_eq_some_iff.mp stands
    exact hinside
  | behind _ _ inside _ ih => exact ih inside

/-- A length octet with reserved bits stays one when octets are appended. -/
theorem BrokenAt.append (h : BrokenAt raw start offset defect) (more : Octets) :
    defect = .reservedLength → BrokenAt (raw ++ more) start offset defect := by
  have hstands {position : Nat} {octet : UInt8} (h : raw[position]? = some octet) :
      (raw ++ more)[position]? = some octet := by
    obtain ⟨hinside, -⟩ := List.getElem?_eq_some_iff.mp h
    rw [List.getElem?_append_left hinside, h]
  induction h with
  | missing => intro hdefect; cases hdefect
  | reserved stands bits => exact fun _ => .reserved (hstands stands) bits
  | halfPointer => intro hdefect; cases hdefect
  | shortLabel => intro hdefect; cases hdefect
  | behind stands bits inside _ ih =>
    intro hdefect
    refine .behind (hstands stands) bits ?_ (ih hdefect)
    rw [List.length_append]
    omega

end Run

namespace Section

/-- An item is defective in its name, or cut off behind it. -/
theorem ItemBrokenAt.run_or_cuts {part : Section} (h : part.ItemBrokenAt raw start offset defect) :
    Run.BrokenAt raw start offset defect ∨
      ∃ (run : Run) (used : Nat) (widths : List Nat), run.StandsAt raw start used ∧
        raw.CutsAt widths (start + used) offset defect := by
  cases part <;>
  · obtain hname | ⟨run, used, hstands, hcuts⟩ := h
    · exact .inl hname
    · exact .inr ⟨run, used, _, hstands, hcuts⟩

/-- A defect of an item lies inside the octets, or right behind them. -/
theorem ItemBrokenAt.offset_le {part : Section} (h : part.ItemBrokenAt raw start offset defect)
    (hstart : start ≤ raw.length) : offset ≤ raw.length := by
  obtain hname | ⟨run, used, widths, hstands, hcuts⟩ := h.run_or_cuts
  · exact hname.offset_le hstart
  · exact hcuts.offset_le hstands.le

/-- A reserved length octet of an item stays one when octets are appended. -/
theorem ItemBrokenAt.append {part : Section}
    (h : part.ItemBrokenAt raw start offset .reservedLength) (more : Octets) :
    part.ItemBrokenAt (raw ++ more) start offset .reservedLength := by
  obtain hname | ⟨_, _, _, _, hcuts⟩ := h.run_or_cuts
  · cases part <;> exact .inl (hname.append more rfl)
  · cases hcuts.defect_eq

end Section

/-- A reserved length octet of a body stays one when octets are appended. -/
theorem Body.BrokenAt.append {sizes : SectionSizes}
    (h : Body.BrokenAt raw sizes start offset .reservedLength) (more : Octets) :
    Body.BrokenAt (raw ++ more) sizes start offset .reservedLength := by
  obtain ⟨body, part, next, hwritten, hlacks, hbroken⟩ := h
  have hnamed (run : Run) (start used : Nat) (hstands : run.StandsAt raw start used) :
      run.StandsAt (raw ++ more) start used := (Run.standsAt_append_iff more hstands.le).mpr hstands
  exact ⟨body, part, next, hwritten.append hnamed more, hlacks, hbroken.append more⟩

/-- A defect of a body lies inside the octets, or right behind them. -/
theorem Body.BrokenAt.offset_le {sizes : SectionSizes}
    (h : Body.BrokenAt raw sizes start offset defect) (hstart : start ≤ raw.length) :
    offset ≤ raw.length := by
  obtain ⟨body, part, next, hwritten, -, hbroken⟩ := h
  exact hbroken.offset_le (hwritten.le hstart).2

/-- A reserved length octet of a frame stays one when octets are appended. -/
theorem Envelope.BrokenAt.append (h : Envelope.BrokenAt raw start offset .reservedLength)
    (more : Octets) : Envelope.BrokenAt (raw ++ more) start offset .reservedLength := by
  obtain hcuts | ⟨header, sizes, bodyAt, hheader, hbody⟩ := h
  · cases hcuts.defect_eq
  · exact .inr ⟨header, sizes, bodyAt, hheader.append more, hbody.append more⟩

/-- A defect of a frame lies inside the octets, or right behind them. -/
theorem Envelope.BrokenAt.offset_le (h : Envelope.BrokenAt raw start offset defect)
    (hstart : start ≤ raw.length) : offset ≤ raw.length := by
  obtain hcuts | ⟨header, sizes, bodyAt, hheader, hbody⟩ := h
  · exact hcuts.offset_le hstart
  · obtain ⟨-, -, -, -, -, -, hend⟩ := hheader
    exact hbody.offset_le hend

end Cut

section Shortened

variable {ν : Type} {Named Named' : ν → Nat → Nat → Prop} {raw more : Octets} {start stop : Nat}

/-- Every tile of a tiling ends no later than the last one. -/
theorem Tiled.and_le {α : Type} {Fits : α → Nat → Nat → Prop} {items : List α}
    (h : Tiled Fits start items stop)
    (hfits : ∀ item start next, Fits item start next → start ≤ next) :
    Tiled (fun item start next => Fits item start next ∧ next ≤ stop) start items stop := by
  induction h with
  | nil position => exact .nil position
  | cons fits others ih => exact .cons ⟨fits, others.start_le hfits⟩ ih

/-- A header that ends before the appended octets is written without them. -/
theorem Header.WrittenAt.of_append {header : Header} {sizes : SectionSizes}
    (h : header.WrittenAt (raw ++ more) sizes start stop) (hstop : stop ≤ raw.length) :
    header.WrittenAt raw sizes start stop := by
  obtain ⟨hword, sizes₁, sizes₂, sizes₃, sizes₄, rfl, -⟩ := h
  have hnumber (q n : Nat) (hq : q + n ≤ start + 12) :
      (raw ++ more).number q n = raw.number q n := Octets.number_append (by omega) more
  rw [hnumber _ _ (by omega)] at sizes₁ sizes₂ sizes₃ sizes₄
  rw [hnumber _ _ (by omega), hnumber _ _ (by omega)] at hword
  exact ⟨hword, sizes₁, sizes₂, sizes₃, sizes₄, rfl, hstop⟩

/-- A question that ends before the appended octets is written without them, if its name is. -/
theorem Question.WrittenAt.of_append {question : Question ν}
    (h : question.WrittenAt (raw ++ more) Named start stop)
    (hnamed : ∀ name start used, Named name start used → start + used ≤ raw.length →
      Named' name start used) (hstop : stop ≤ raw.length) :
    question.WrittenAt raw Named' start stop := by
  obtain ⟨used, hname, htype, hclass, rfl, -⟩ := h
  rw [Octets.number_append (by omega)] at htype hclass
  exact ⟨used, hnamed _ _ _ hname (by omega), htype, hclass, rfl, hstop⟩

/-- A record that ends before the appended octets is written without them, if its name is. -/
theorem Record.WrittenAt.of_append {record : Record ν}
    (h : record.WrittenAt (raw ++ more) Named start stop)
    (hnamed : ∀ name start used, Named name start used → start + used ≤ raw.length →
      Named' name start used) (hstop : stop ≤ raw.length) :
    record.WrittenAt raw Named' start stop := by
  obtain ⟨used, rdlength, hname, htype, hclass, httl, hlength, hoffset, hrdata, rfl, -⟩ := h
  rw [Octets.number_append (by omega)] at htype hclass httl hlength
  rw [Octets.slice_append (by omega)] at hrdata
  exact ⟨used, rdlength, hnamed _ _ _ hname (by omega), htype, hclass, httl, hlength, hoffset,
    hrdata, rfl, hstop⟩

/-- A body that ends before the appended octets is written without them, if its names are. -/
theorem Body.WrittenAt.of_append {body : Body ν}
    (h : body.WrittenAt (raw ++ more) Named start stop)
    (hnamed : ∀ name start used, Named name start used → start + used ≤ raw.length →
      Named' name start used) (hstop : stop ≤ raw.length) :
    body.WrittenAt raw Named' start stop := by
  obtain ⟨answersAt, authorityAt, additionalAt, tiled₁, tiled₂, tiled₃, tiled₄⟩ := h
  have hrecords {records : List (Record ν)} {start stop : Nat}
      (h : Tiled (Record.WrittenAt (raw ++ more) Named) start records stop)
      (hstop : stop ≤ raw.length) :
      start ≤ raw.length ∧ Tiled (Record.WrittenAt raw Named') start records stop := by
    have hle := h.start_le fun _ _ _ hwritten => hwritten.le.1
    have hbounded := h.and_le fun _ _ _ hwritten => hwritten.le.1
    exact ⟨by omega, hbounded.imp fun record start next hwritten =>
      hwritten.1.of_append hnamed (by omega)⟩
  obtain ⟨hle₄, tiled₄⟩ := hrecords tiled₄ hstop
  obtain ⟨hle₃, tiled₃⟩ := hrecords tiled₃ hle₄
  obtain ⟨hle₂, tiled₂⟩ := hrecords tiled₂ hle₃
  have hbounded := tiled₁.and_le fun _ _ _ hwritten => hwritten.le.1
  exact ⟨answersAt, authorityAt, additionalAt, hbounded.imp fun question start next hwritten =>
    hwritten.1.of_append hnamed (by omega), tiled₂, tiled₃, tiled₄⟩

namespace Envelope

variable {envelope : Envelope}

/-- Octets behind the last item do not matter to framing. -/
theorem read_append_iff (hstop : stop ≤ raw.length) :
    read (.within (raw ++ more) 0) = .ok (envelope, .within (raw ++ more) stop) ↔
      read (.within raw 0) = .ok (envelope, .within raw stop) := by
  have hrun (run : Run) (start used : Nat) (h : start + used ≤ raw.length) :
      run.StandsAt (raw ++ more) start used ↔ run.StandsAt raw start used :=
    Run.standsAt_append_iff more h
  constructor
  · intro h
    obtain ⟨_, ⟨sizes, bodyAt, hheader, hsizes, hbody⟩, hnext⟩ := (Envelope.reads _ _ _ _).mp h
    obtain rfl : stop = _ := congrArg Cursor.position hnext
    obtain ⟨-, -, -, -, -, -, hend⟩ := id hheader
    have hle := (hbody.le hend).1
    refine (Envelope.reads _ _ _ _).mpr ⟨stop, ⟨sizes, bodyAt, ?_, hsizes, ?_⟩, rfl⟩
    · exact hheader.of_append (by omega)
    · exact hbody.of_append (fun run start used hstands hle => (hrun _ _ _ hle).mp hstands) hstop
  · intro h
    obtain ⟨_, ⟨sizes, bodyAt, hheader, hsizes, hbody⟩, hnext⟩ := (Envelope.reads _ _ _ _).mp h
    obtain rfl : stop = _ := congrArg Cursor.position hnext
    refine (Envelope.reads _ _ _ _).mpr ⟨stop, ⟨sizes, bodyAt, ?_, hsizes, ?_⟩, rfl⟩
    · exact hheader.append more
    · exact hbody.append (fun run start used hstands => (hrun _ _ _ hstands.le).mpr hstands) more

/-- A frame that passes the end of the octets is refused for that end. -/
theorem read_eq_error_of_lt
    (h : read (.within (raw ++ more) 0) = .ok (envelope, .within (raw ++ more) stop))
    (hcut : raw.length < stop) :
    ∃ offset ≤ raw.length, read (.within raw 0) = .error (.malformed offset .endOfInput) := by
  cases hread : read (.within raw 0) with
  | ok result =>
    obtain ⟨shorter, next⟩ := result
    obtain ⟨stop', hfits, rfl⟩ := (Envelope.reads raw 0 shorter next).mp hread
    have hle : stop' ≤ raw.length := by
      obtain ⟨_, _, ⟨-, -, -, -, -, -, hend⟩, -, hbody⟩ := hfits
      exact (hbody.le hend).2
    have hagain : read (.within (raw ++ more) 0) = .ok (shorter, .within (raw ++ more) stop') :=
      (read_append_iff hle).mpr hread
    rw [h] at hagain
    cases hagain
    omega
  | error fault =>
    obtain ⟨offset, defect, hbroken, rfl⟩ := (Envelope.breaks raw 0 fault).mp hread
    cases defect with
    | endOfInput => exact ⟨offset, hbroken.offset_le (Nat.zero_le _), rfl⟩
    | reservedLength =>
      have hagain := (Envelope.breaks (raw ++ more) 0 _).mpr
        ⟨offset, .reservedLength, hbroken.append more, rfl⟩
      rw [h] at hagain
      cases hagain

end Envelope

end Shortened

/-- A run without a pointer is resolved without a look at the message. -/
theorem Run.resolve_eq_of_target_eq_none {run : Run} (h : run.target = none)
    (raw other : Octets) : run.resolve raw = run.resolve other := by
  rw [resolve, resolve]
  cases hcharge : Walk.charge 1 run.labels with
  | error fault =>
    rw [Walk.follow_of_charge_eq_error hcharge, Walk.follow_of_charge_eq_error hcharge]
  | ok charged =>
    rw [Walk.follow_of_target_eq_none hcharge h, Walk.follow_of_target_eq_none hcharge h]

namespace Message

/-- A message that is cut off before the end of its last item is refused because it is cut off,
at an offset that it still has. Behind that end a cut is never a fault of the frame: the message
is read with the octets that are left, or it is refused for a name that goes on at a pointer. -/
theorem parse_take_of_parse (raw : Octets) (message : Message) (h : parse raw = .ok message) :
    ∃ stop, message.body.WrittenAt raw message.NamedAt 12 stop ∧ stop ≤ raw.length ∧
      (∀ bound < stop, ∃ offset ≤ bound,
        parse (raw.take bound) = .error (.malformed offset .endOfInput)) ∧
      ∀ bound, stop ≤ bound → bound ≤ raw.length →
        ∃ envelope next, Envelope.read (.start (raw.take bound)) = .ok (envelope, next) ∧
          (parse (raw.take bound) = .ok { message with raw := raw.take bound } ∨
            ∃ run ∈ envelope.body.names, ∃ target fault, run.target = some target ∧
              run.resolve (raw.take bound) = .error fault ∧
              parse (raw.take bound) = .error fault) := by
  obtain ⟨rfl, sizes, bodyAt, stop, hheader, hsizes, hwritten⟩ := parse_eq_ok_iff_writtenAt.mp h
  obtain ⟨body, hbody, hnames⟩ :=
    (Body.writtenAt_iff_exists_mapNames message.namedAt_iff _ _ _).mp hwritten
  have hframe (bound : Nat) :
      Envelope.read (.within (message.raw.take bound ++ message.raw.drop bound) 0) =
        .ok (⟨message.header, body⟩,
          .within (message.raw.take bound ++ message.raw.drop bound) stop) := by
    rw [List.take_append_drop]
    exact (Envelope.reads _ _ _ _).mpr ⟨stop,
      ⟨sizes, bodyAt, hheader, (Body.hasSizes_mapNames hnames sizes).mp hsizes, hbody⟩, rfl⟩
  obtain ⟨-, -, -, -, -, rfl, hend⟩ := hheader
  have hstop := (hwritten.le hend).2
  have hlength (bound : Nat) (hbound : bound ≤ message.raw.length) :
      (message.raw.take bound).length = bound := by
    rw [List.length_take, Nat.min_eq_left hbound]
  refine ⟨stop, hwritten, hstop, fun bound hbound => ?_, fun bound hbound hle => ?_⟩
  · have hcut := hlength bound (by omega)
    obtain ⟨offset, hoffset, hread⟩ := Envelope.read_eq_error_of_lt (hframe bound) (by omega)
    exact ⟨offset, by omega, parse_eq_error_iff.mpr (.inl hread)⟩
  · have hcut := hlength bound hle
    have hread := (Envelope.read_append_iff (by omega)).mp (hframe bound)
    refine ⟨_, _, hread, ?_⟩
    cases hparse : parse (message.raw.take bound) with
    | ok shorter =>
      have hagain := parse_append hparse (message.raw.drop bound)
      rw [List.take_append_drop, h] at hagain
      have hmessage := Except.ok.inj hagain
      have hheader : message.header = shorter.header := by rw [hmessage, appending]
      have hbody : message.body = shorter.body := by rw [hmessage, appending]
      left
      rw [hheader, hbody, ← (parse_eq_ok_iff_writtenAt.mp hparse).1]
    | error fault =>
      obtain hrefused | ⟨envelope, next, hread', hfault⟩ := parse_eq_error_iff.mp hparse
      · cases hread.symm.trans hrefused
      · cases hread.symm.trans hread'
        rw [Body.faultOf_mapNames] at hfault
        obtain ⟨run, hrun, hrunFault⟩ := List.exists_of_findSome?_eq_some hfault
        rw [faultOf_map, faultOf_eq_some_iff] at hrunFault
        -- Without a pointer the run would be resolved as it is in the whole message.
        have hpointer : run.target ≠ none := by
          intro hnone
          have hwhole := faultOf_eq_none_iff.mpr ⟨_, hnames⟩
          rw [Body.faultOf_mapNames, List.findSome?_eq_none_iff] at hwhole
          have hresolved := hwhole run hrun
          rw [faultOf_map, run.resolve_eq_of_target_eq_none hnone _ (message.raw.take bound),
            hrunFault] at hresolved
          cases hresolved
        obtain ⟨target, htarget⟩ := Option.ne_none_iff_exists'.mp hpointer
        exact .inr ⟨run, hrun, target, fault, htarget, hrunFault, rfl⟩

/-- A question whose name lies behind it. -/
def trailingWire : Octets :=
  [0, 1, 0, 0, 0, 1, 0, 0, 0, 0, 0, 0, 0xc0, 18, 0, 1, 0, 1, 0]

/-- The message in `trailingWire`. -/
def trailingMessage : Message where
  header := ⟨1, .query, .noError, ⟨false, false, false, false, false, false, false, false⟩⟩
  body := ⟨[⟨".", .a, .internet⟩], [], [], []⟩
  raw := trailingWire

set_option maxRecDepth 1000 in
/-- The question ends after 18 octets. A cut in front of that is reported as one; a cut right
there leaves a pointer without a target. -/
theorem parse_trailingWire :
    parse trailingWire = .ok trailingMessage ∧
      trailingMessage.body.WrittenAt trailingWire trailingMessage.NamedAt 12 18 ∧
      (∀ bound < 18, ∃ offset ≤ bound,
        parse (trailingWire.take bound) = .error (.malformed offset .endOfInput)) ∧
      parse (trailingWire.take 18) = .error (.pointerOutside 18) := by
  have hparse : parse trailingWire = .ok trailingMessage := by with_unfolding_all rfl
  have hfull : parse (trailingWire.take 18) = .error (.pointerOutside 18) := by
    with_unfolding_all rfl
  have hshort : Envelope.read (.start (trailingWire.take 17)) =
      .error (.malformed 16 .endOfInput) := by with_unfolding_all rfl
  obtain ⟨stop, hwritten, -, hcut, hframed⟩ := parse_take_of_parse _ _ hparse
  have hlow : ¬ stop ≤ 17 := by
    intro hle
    obtain ⟨_, _, hread, -⟩ := hframed 17 hle (by decide)
    cases hread.symm.trans hshort
  have hhigh : ¬ 18 < stop := by
    intro hlt
    obtain ⟨_, _, hmalformed⟩ := hcut 18 hlt
    cases hmalformed.symm.trans hfull
  obtain rfl : stop = 18 := by omega
  exact ⟨hparse, hwritten, hcut, hfull⟩

end Message

end DnsTrace
