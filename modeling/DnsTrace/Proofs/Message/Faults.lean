import DnsTrace.Message.Trace
import DnsTrace.Proofs.Message.Defects
import DnsTrace.Proofs.Message.Names
import DnsTrace.Proofs.Text.Digits

/-!
# The fault for which a message is refused

A message can be refused twice: while it is framed, and when the names of its items are resolved.
Framing comes first and follows no pointer. So a defect of the frame is reported whatever the
names in front of it lead to, and of the names the first in wire order that cannot be read.

The fault of a step is looked at on its own here, because the first fault among some names does
not depend on the form in which the other names are held.
-/

namespace DnsTrace

section FirstFault

variable {α β γ : Type}

/-- The fault for which a step is refused, if it is. -/
def faultOf : Except Fault α → Option Fault
  | .ok _ => none
  | .error fault => some fault

/-- A step has the fault with which it ends. -/
@[simp] theorem faultOf_eq_some_iff {step : Except Fault α} {fault : Fault} :
    faultOf step = some fault ↔ step = .error fault := by
  cases step <;> simp [faultOf]

/-- A step that yields something has no fault. -/
theorem faultOf_eq_none_iff {step : Except Fault α} :
    faultOf step = none ↔ ∃ value, step = .ok value := by
  cases step <;> simp [faultOf]

/-- A changed result has the same fault. -/
@[simp] theorem faultOf_map (step : Except Fault α) (change : α → β) :
    faultOf (step.map change) = faultOf step := by
  cases step <;> rfl

/-- The fault of two steps is that of the first, or else that of the second. -/
theorem faultOf_bind {step : Except Fault α} {next : α → Except Fault β} (fault : Option Fault)
    (h : ∀ value, faultOf (next value) = fault) :
    faultOf (step >>= next) = (faultOf step).or fault := by
  cases step with
  | error first => rfl
  | ok value => exact h value

/-- A step whose result is only put in its place has the fault of the step. -/
theorem faultOf_bind_pure (step : Except Fault α) (change : α → β) :
    faultOf (step >>= fun value => pure (change value)) = faultOf step := by
  cases step <;> rfl

/-- A list that is changed item by item has the fault of the first item that has one. -/
theorem faultOf_mapM (change : α → Except Fault β) (items : List α) :
    faultOf (items.mapM change) = items.findSome? fun item => faultOf (change item) := by
  induction items with
  | nil => rfl
  | cons item items ih =>
    rw [List.mapM_cons, List.findSome?_cons]
    cases change item with
    | error fault => rfl
    | ok result =>
      exact (faultOf_bind_pure (items.mapM change) (result :: ·)).trans ih

/-- Items that are searched for the same things have the same first of them. -/
theorem findSome?_eq_of_forall_mem {items : List α} {first second : α → Option β}
    (h : ∀ item ∈ items, first item = second item) :
    items.findSome? first = items.findSome? second := by
  induction items with
  | nil => rfl
  | cons item items ih =>
    obtain ⟨hitem, hitems⟩ := List.forall_mem_cons.mp h
    rw [List.findSome?_cons, List.findSome?_cons, hitem, ih hitems]

/-- A body whose names are changed has the fault of the first name, in wire order, that has one. -/
theorem Body.faultOf_mapNames (change : α → Except Fault β) (body : Body α) :
    faultOf (body.mapNames change) = body.names.findSome? fun name => faultOf (change name) := by
  have hquestion (question : Question α) :
      faultOf (question.mapName change) = faultOf (change question.name) :=
    faultOf_bind_pure (change question.name) fun name : β =>
      (⟨name, question.rrType, question.rrClass⟩ : Question β)
  have hrecord (record : Record α) :
      faultOf (record.mapName change) = faultOf (change record.name) :=
    faultOf_bind_pure (change record.name) fun name : β =>
      (⟨name, record.rrType, record.rrClass, record.ttl, record.rdata, record.rdataOffset⟩ :
        Record β)
  have hrecords (records : List (Record α)) :
      faultOf (records.mapM (Record.mapName change)) =
        (records.map (·.name)).findSome? fun name => faultOf (change name) := by
    rw [faultOf_mapM, List.findSome?_map]
    simp only [hrecord, Function.comp_def]
  rw [mapNames, faultOf_bind _ fun _ => faultOf_bind _ fun _ => faultOf_bind _ fun _ =>
    faultOf_bind_pure _ _]
  simp only [hrecords, faultOf_mapM, hquestion, names, List.findSome?_append, List.findSome?_map,
    Function.comp_def]

/-- A change that refuses no name can be made. -/
theorem Body.exists_mapNames (change : α → β) (body : Body α) :
    ∃ renamed, body.mapNames (fun name => .ok (change name)) = .ok renamed := by
  rw [← faultOf_eq_none_iff, Body.faultOf_mapNames, List.findSome?_eq_none_iff]
  intro name _
  rfl

/-- Where no name is refused, the names are changed one by one. -/
theorem Body.names_of_mapNames {change : α → β} {body : Body α} {renamed : Body β}
    (h : body.mapNames (fun name => .ok (change name)) = .ok renamed) :
    renamed.names = body.names.map change := by
  have hforall := Body.forall₂_names_of_mapNames h
  simp only [Except.ok.injEq] at hforall
  have hequal : List.Forall₂ (· = ·) (body.names.map change) renamed.names :=
    List.forall₂_map_left_iff.mpr hforall
  rw [List.forall₂_eq_eq_eq] at hequal
  exact hequal.symm

end FirstFault

/-- The name is the offset at which a run stands. -/
def Run.BeginsAt (raw : Octets) (name start used : Nat) : Prop :=
  name = start ∧ ∃ run : Run, run.StandsAt raw start used

/-- The frame of `raw` is complete, and its names begin at the offsets that are the names of
`layout`. -/
def Envelope.LaidOut (raw : Octets) (layout : Body Nat) : Prop :=
  ∃ (header : Header) (sizes : SectionSizes) (bodyAt stop : Nat),
    header.WrittenAt raw sizes 0 bodyAt ∧ layout.HasSizes sizes ∧
      layout.WrittenAt raw (Run.BeginsAt raw) bodyAt stop

section Layouts

variable {raw : Octets}

/-- A run that stands at its offset. -/
def Run.LocatedAt (raw : Octets) (located : Run × Nat) (start used : Nat) : Prop :=
  located.2 = start ∧ located.1.StandsAt raw start used

/-- Runs stand where located runs do. -/
theorem Run.standsAt_iff_exists_locatedAt (run : Run) (start used : Nat) :
    run.StandsAt raw start used ↔
      ∃ located : Run × Nat, LocatedAt raw located start used ∧
        (.ok located.1 : Except Fault Run) = .ok run := by
  constructor
  · intro h
    exact ⟨(run, start), ⟨rfl, h⟩, rfl⟩
  · rintro ⟨located, ⟨-, hstands⟩, hrun⟩
    cases hrun
    exact hstands

/-- Names begin where located runs stand. -/
theorem Run.beginsAt_iff_exists_locatedAt (name start used : Nat) :
    BeginsAt raw name start used ↔
      ∃ located : Run × Nat, LocatedAt raw located start used ∧
        (.ok located.2 : Except Fault Nat) = .ok name := by
  constructor
  · rintro ⟨rfl, run, hstands⟩
    exact ⟨(run, name), ⟨rfl, hstands⟩, rfl⟩
  · rintro ⟨located, ⟨hstart, hstands⟩, hname⟩
    cases hname
    exact ⟨hstart, located.1, hstands⟩

/-- The runs of `body` stand at the offsets that `layout` has in their places. -/
def Body.StandsIn (raw : Octets) (body : Body Run) (layout : Body Nat) (start stop : Nat) : Prop :=
  ∃ located : Body (Run × Nat), located.WrittenAt raw (Run.LocatedAt raw) start stop ∧
    located.mapNames (fun name => .ok name.1) = .ok body ∧
    located.mapNames (fun name => .ok name.2) = .ok layout

namespace Body

variable {body : Body Run} {layout : Body Nat} {start stop : Nat}

/-- Every body that is written has a layout. -/
theorem exists_standsIn_layout (h : body.WrittenAt raw (Run.StandsAt raw) start stop) :
    ∃ layout, body.StandsIn raw layout start stop := by
  obtain ⟨located, hwritten, hbody⟩ :=
    (writtenAt_iff_exists_mapNames Run.standsAt_iff_exists_locatedAt _ _ _).mp h
  obtain ⟨layout, hlayout⟩ := located.exists_mapNames (·.2)
  exact ⟨layout, located, hwritten, hbody, hlayout⟩

/-- Every layout has a body that is written. -/
theorem exists_standsIn_body (h : layout.WrittenAt raw (Run.BeginsAt raw) start stop) :
    ∃ body : Body Run, body.StandsIn raw layout start stop := by
  obtain ⟨located, hwritten, hlayout⟩ :=
    (writtenAt_iff_exists_mapNames Run.beginsAt_iff_exists_locatedAt _ _ _).mp h
  obtain ⟨body, hbody⟩ := located.exists_mapNames (·.1)
  exact ⟨body, located, hwritten, hbody, hlayout⟩

/-- A body is written where it stands, and so is its layout. -/
theorem StandsIn.writtenAt (h : body.StandsIn raw layout start stop) :
    body.WrittenAt raw (Run.StandsAt raw) start stop ∧
      layout.WrittenAt raw (Run.BeginsAt raw) start stop := by
  obtain ⟨located, hwritten, hbody, hlayout⟩ := h
  exact ⟨(writtenAt_iff_exists_mapNames Run.standsAt_iff_exists_locatedAt _ _ _).mpr
      ⟨located, hwritten, hbody⟩,
    (writtenAt_iff_exists_mapNames Run.beginsAt_iff_exists_locatedAt _ _ _).mpr
      ⟨located, hwritten, hlayout⟩⟩

/-- A body has as many items as its layout. -/
theorem StandsIn.hasSizes_iff (h : body.StandsIn raw layout start stop) (sizes : SectionSizes) :
    body.HasSizes sizes ↔ layout.HasSizes sizes := by
  obtain ⟨located, -, hbody, hlayout⟩ := h
  rw [hasSizes_mapNames hbody, hasSizes_mapNames hlayout]

/-- The first fault among the runs of a body is the first among the names that are read at their
offsets. -/
theorem StandsIn.faultOf_mapNames (h : body.StandsIn raw layout start stop) :
    faultOf (body.mapNames fun run => (run.resolve raw).map DomainName.text) =
      layout.names.findSome? fun offset =>
        faultOf (DomainName.readAt raw offset raw.length) := by
  obtain ⟨located, hwritten, hbody, hlayout⟩ := h
  have hsame : ∀ name ∈ located.names,
      faultOf (name.1.resolve raw) = faultOf (DomainName.readAt raw name.2 raw.length) := by
    rintro ⟨run, offset⟩ hname
    obtain ⟨start, used, rfl, hlies, -⟩ := hwritten.exists_named hname
    have hwindow : run.LiesIn (raw.between offset (min raw.length raw.length)) := by
      rw [Nat.min_self, Octets.between, List.take_length]
      exact hlies
    rw [DomainName.readAt_of_liesIn hwindow, faultOf_map]
  rw [Body.faultOf_mapNames, names_of_mapNames hbody, names_of_mapNames hlayout,
    List.findSome?_map, List.findSome?_map]
  simp only [faultOf_map]
  exact findSome?_eq_of_forall_mem hsame

end Body

end Layouts

/-- The faults for which a message can be refused: those of its frame and of the pointers in its
names, and none of record data. -/
def Fault.RefusesMessage : Fault → Prop
  | .malformed _ _ | .pointerOutside _ | .pointerLoop _ | .pointerChain _ | .nameTooLong _ => True
  | .truncated _ _ | .optionOverrun _ _ _ | .shortClientSubnet _ => False

/-- How a fault for which a message can be refused is put in words. -/
inductive Fault.WordedAs : Fault → String → Prop
  | endOfInput (offset : Nat) : WordedAs (.malformed offset .endOfInput)
      ("malformed message at offset " ++ toString offset ++ " (Eof)")
  | reservedLength (offset : Nat) : WordedAs (.malformed offset .reservedLength)
      ("malformed message at offset " ++ toString offset ++ " (Verify)")
  | pointerOutside (target : Nat) : WordedAs (.pointerOutside target)
      ("name pointer " ++ toString target ++ " is outside the message")
  | pointerLoop (target : Nat) : WordedAs (.pointerLoop target)
      ("Circular reference - detected a pointer we have seen already: " ++ toString target)
  | pointerChain (limit : Nat) : WordedAs (.pointerChain limit)
      ("name follows more than " ++ toString limit ++ " compression pointers")
  | nameTooLong (octets : Nat) : WordedAs (.nameTooLong octets)
      ("name of " ++ toString octets ++ " octets exceeds 255")

/-- Every such fault is put in its words. -/
theorem Fault.wordedAs_message {fault : Fault} (h : fault.RefusesMessage) :
    fault.WordedAs fault.message := by
  unfold message
  cases fault with
  | malformed offset defect =>
    simp only [decimal_eq_toString]
    rw [String.append_assoc, String.append_assoc]
    cases defect with
    | endOfInput => exact .endOfInput offset
    | reservedLength => exact .reservedLength offset
  | pointerOutside target =>
    simp only [decimal_eq_toString]
    exact .pointerOutside target
  | pointerLoop target =>
    simp only [decimal_eq_toString]
    exact .pointerLoop target
  | pointerChain limit =>
    simp only [decimal_eq_toString]
    exact .pointerChain limit
  | nameTooLong octets =>
    simp only [decimal_eq_toString]
    exact .nameTooLong octets
  | truncated | optionOverrun | shortClientSubnet => cases h

/-- A walk fails in the frame of a run, at a pointer, or for the length of its name. -/
theorem Walk.refusesMessage_of_follow {raw : Octets} {hops : Nat} {visited : List Nat}
    {wireLength : Nat} {run : Run} {fault : Fault}
    (h : follow raw hops visited wireLength run = .error fault) : fault.RefusesMessage := by
  fun_induction follow raw hops visited wireLength run with
  | case1 hops visited wireLength run first hcharge =>
    cases h
    obtain ⟨octets, rfl⟩ := nameTooLong_of_charge hcharge
    trivial
  | case2 => cases h
  | case3 => cases h; trivial
  | case4 => cases h; trivial
  | case5 => cases h; trivial
  | case6 visited wireLength run charged hcharge target htarget hvisited hops first hwindow hread =>
    cases h
    obtain ⟨offset, defect, -, rfl⟩ := Run.brokenAt_of_read hread rfl
    trivial
  | case7 visited wireLength run charged hcharge target htarget hvisited hops next cursor hwindow
      hread ih =>
    exact ih (map_eq_error_iff.mp h)

/-- A name is refused for such a fault, wherever its run ends. -/
theorem Run.refusesMessage_of_resolve {raw : Octets} {run : Run} {fault : Fault}
    (h : run.resolve raw = .error fault) : fault.RefusesMessage :=
  Walk.refusesMessage_of_follow h

namespace Message

/-- Framing and then resolving, a message is refused when one of the two is. -/
theorem parse_eq_error_iff {raw : Octets} {fault : Fault} :
    parse raw = .error fault ↔
      Envelope.read (.start raw) = .error fault ∨
        ∃ envelope next, Envelope.read (.start raw) = .ok (envelope, next) ∧
          faultOf (envelope.body.mapNames fun run => (run.resolve raw).map DomainName.text) =
            some fault := by
  rw [parse, bind_eq_error_iff]
  constructor
  · rintro (hframe | ⟨⟨envelope, next⟩, hframe, hnames⟩)
    · exact .inl hframe
    · rw [← faultOf_eq_some_iff,
        faultOf_bind_pure _ fun body => Message.mk envelope.header body raw] at hnames
      exact .inr ⟨envelope, next, hframe, hnames⟩
  · rintro (hframe | ⟨envelope, next, hframe, hnames⟩)
    · exact .inl hframe
    · rw [← faultOf_bind_pure _ fun body => Message.mk envelope.header body raw,
        faultOf_eq_some_iff] at hnames
      exact .inr ⟨(envelope, next), hframe, hnames⟩

/-- A frame is complete and its first fault is this one, exactly when it is laid out with names
of which this is the first fault. -/
theorem exists_envelope_iff_laidOut {raw : Octets} {fault : Fault} :
    (∃ envelope next, Envelope.read (.start raw) = .ok (envelope, next) ∧
      faultOf (envelope.body.mapNames fun run => (run.resolve raw).map DomainName.text) =
        some fault) ↔
      ∃ layout, Envelope.LaidOut raw layout ∧
        (layout.names.findSome? fun offset =>
          faultOf (DomainName.readAt raw offset raw.length)) = some fault := by
  constructor
  · rintro ⟨envelope, next, hframe, hnames⟩
    obtain ⟨stop, ⟨sizes, bodyAt, hheader, hsizes, hbody⟩, -⟩ :=
      (Envelope.reads raw 0 envelope next).mp hframe
    obtain ⟨layout, hstands⟩ := Body.exists_standsIn_layout hbody
    rw [hstands.faultOf_mapNames] at hnames
    exact ⟨layout, ⟨envelope.header, sizes, bodyAt, stop, hheader,
      (hstands.hasSizes_iff sizes).mp hsizes, hstands.writtenAt.2⟩, hnames⟩
  · rintro ⟨layout, ⟨header, sizes, bodyAt, stop, hheader, hsizes, hlayout⟩, hnames⟩
    obtain ⟨body, hstands⟩ := Body.exists_standsIn_body hlayout
    have hframe := (Envelope.reads raw 0 ⟨header, body⟩ _).mpr ⟨stop, ⟨sizes, bodyAt, hheader,
      (hstands.hasSizes_iff sizes).mpr hsizes, hstands.writtenAt.1⟩, rfl⟩
    rw [← hstands.faultOf_mapNames] at hnames
    exact ⟨⟨header, body⟩, _, hframe, hnames⟩

/-- A message is refused where its frame is broken, or for a name of a complete frame, as that name
is when it is read at its offset. -/
theorem brokenAt_or_readAt_of_parse {raw : Octets} {fault : Fault} (h : parse raw = .error fault) :
    (∃ offset defect, Envelope.BrokenAt raw 0 offset defect ∧
      fault = .malformed offset defect) ∨
    ∃ layout, Envelope.LaidOut raw layout ∧ ∃ offset ∈ layout.names,
      DomainName.readAt raw offset raw.length = .error fault := by
  obtain hframe | hnames := parse_eq_error_iff.mp h
  · exact .inl ((Envelope.breaks raw 0 fault).mp hframe)
  · obtain ⟨layout, hlaid, hfirst⟩ := exists_envelope_iff_laidOut.mp hnames
    obtain ⟨offset, hoffset, hname⟩ := List.exists_of_findSome?_eq_some hfirst
    exact .inr ⟨layout, hlaid, offset, hoffset, faultOf_eq_some_iff.mp hname⟩

/-- A message is refused for the first defect of its frame, whatever the names in front of the
defect lead to. When the frame is complete, it is refused for the fault of the first name, in
wire order, that cannot be read at its own offset in the whole message; all names in front of it
can be. Record data is passed over as it stands, so no fault of its content is among these. The
trace and the reading of the name that is asked about report the same fault, the trace in the
words of its kind with its numbers. -/
theorem parse_eq_error_iff_first (raw : Octets) (fault : Fault) :
    (parse raw = .error fault ↔
      (∃ offset defect, Envelope.BrokenAt raw 0 offset defect ∧
        fault = .malformed offset defect) ∨
      ∃ layout, Envelope.LaidOut raw layout ∧ ∃ earlier offset later,
        layout.names = earlier ++ offset :: later ∧
        (∀ other ∈ earlier, ∃ taken, DomainName.readAt raw other raw.length = .ok taken) ∧
        DomainName.readAt raw offset raw.length = .error fault) ∧
    (parse raw = .error fault →
      fault.RefusesMessage ∧ readAskedName raw = .error fault ∧
      ∃ words, fault.WordedAs words ∧
        ∀ token, (Trace.ofPayload raw).render token = " " ++ (token ++ ("dns " ++ words))) := by
  have hnames (names : List Nat) :
      (names.findSome? fun offset => faultOf (DomainName.readAt raw offset raw.length)) =
        some fault ↔
      ∃ earlier offset later, names = earlier ++ offset :: later ∧
        (∀ other ∈ earlier, ∃ taken, DomainName.readAt raw other raw.length = .ok taken) ∧
        DomainName.readAt raw offset raw.length = .error fault := by
    simp only [List.findSome?_eq_some_iff, faultOf_eq_some_iff, faultOf_eq_none_iff, and_comm]
  refine ⟨?_, fun h => ?_⟩
  · rw [parse_eq_error_iff, exists_envelope_iff_laidOut]
    simp only [hnames]
    exact or_congr_left (Envelope.breaks raw 0 fault)
  have hrefuses : fault.RefusesMessage := by
    obtain hframe | ⟨envelope, next, -, hfault⟩ := parse_eq_error_iff.mp h
    · obtain ⟨offset, defect, -, rfl⟩ := (Envelope.breaks raw 0 fault).mp hframe
      trivial
    · rw [Body.faultOf_mapNames] at hfault
      obtain ⟨run, -, hrun⟩ := List.exists_of_findSome?_eq_some hfault
      rw [faultOf_map, faultOf_eq_some_iff] at hrun
      exact Run.refusesMessage_of_resolve hrun
  refine ⟨hrefuses, ?_, fault.message, Fault.wordedAs_message hrefuses, fun token => ?_⟩
  · rw [readAskedName, h]
    rfl
  · rw [Trace.ofPayload, h]
    simp [Fault.trace, Fragment.render]

/-- Two questions, of which the first name leads to itself and the second is missing. -/
def cutWire : Octets := [0, 1, 0, 0, 0, 2, 0, 0, 0, 0, 0, 0, 0xc0, 12, 0, 1, 0, 1]

/-- Two questions, of which the first is for the root and the second name leads to itself. -/
def loopWire : Octets :=
  [0, 1, 0, 0, 0, 2, 0, 0, 0, 0, 0, 0, 0, 0, 1, 0, 1, 0xc0, 17, 0, 1, 0, 1]

set_option maxRecDepth 1000 in
/-- The missing question is reported, not the pointer in front of it; where both questions are
complete, the pointer is. -/
theorem parse_cutWire :
    parse cutWire = .error (.malformed 18 .endOfInput) ∧
      (Trace.ofPayload cutWire).render "" = " dns malformed message at offset 18 (Eof)" ∧
      parse loopWire = .error (.pointerLoop 17) ∧
      readAskedName loopWire = .error (.pointerLoop 17) ∧
      (Trace.ofPayload loopWire).render "" =
        " dns Circular reference - detected a pointer we have seen already: 17" := by
  have hframe : Envelope.BrokenAt cutWire 0 18 .endOfInput := by
    have hstands : (⟨[], some 12⟩ : Run).StandsAt cutWire 12 2 :=
      ⟨⟨⟨by decide, by decide⟩, by decide⟩, rfl⟩
    refine .inr ⟨_, ⟨2, 0, 0, 0⟩, 12, ⟨rfl, rfl, rfl, rfl, rfl, rfl, by decide⟩,
      ⟨[⟨⟨[], some 12⟩, .a, .internet⟩], [], [], []⟩, .question, 18,
      ⟨18, 18, 18, .cons ⟨2, hstands, by decide, by decide, rfl, by decide⟩ (.nil 18), .nil 18,
        .nil 18, .nil 18⟩, ⟨by decide, rfl, rfl, rfl⟩, .inl (.missing (by decide))⟩
  obtain ⟨hiff, hreport⟩ := parse_eq_error_iff_first cutWire (.malformed 18 .endOfInput)
  have hcut := hiff.mpr (.inl ⟨18, .endOfInput, hframe, rfl⟩)
  obtain ⟨-, -, cutWords, hcutWords, hcutTrace⟩ := hreport hcut
  have hloop : parse loopWire = .error (.pointerLoop 17) := by with_unfolding_all rfl
  obtain ⟨-, hasked, loopWords, hloopWords, hloopTrace⟩ :=
    (parse_eq_error_iff_first loopWire _).2 hloop
  cases hcutWords
  cases hloopWords
  exact ⟨hcut, (hcutTrace "").trans (by decide), hloop, hasked, (hloopTrace "").trans (by decide)⟩

end Message

end DnsTrace
