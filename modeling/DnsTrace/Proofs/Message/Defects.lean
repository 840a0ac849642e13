import DnsTrace.Proofs.Message.Framing

/-!
# Where a frame breaks off

Framing goes through a message field by field and stops at the first that it cannot read. So
the first defect can be told from the octets alone: everything in front of it stands complete,
and at the defect there are too few octets left, or a length octet with reserved bits.

`Envelope.BrokenAt` says this of the whole frame. Together with `Envelope.reads` it describes
framing completely: an envelope is read where its items tile the message, and refused with the
one defect at which the tiling breaks off.
-/

namespace DnsTrace

/-- Of fields with these widths, which stand in a row from `start` on, the one at `offset` is the
first that passes the end of the octets. -/
def Octets.CutsAt (octets : Octets) : List Nat → Nat → Nat → Defect → Prop
  | [], _, _, _ => False
  | width :: widths, start, offset, defect =>
      if width ≤ octets.length - start then octets.CutsAt widths (start + width) offset defect
      else offset = start ∧ defect = .endOfInput

namespace Cursor

/-- Within `raw`, `read` is refused exactly for the defects that `Broken` finds from the cursor
on. -/
def Breaks {α : Type} (raw : Octets) (read : Cursor → Except Fault (α × Cursor))
    (Broken : Nat → Nat → Defect → Prop) : Prop :=
  ∀ start fault,
    read (within raw start) = .error fault ↔
      ∃ offset defect, Broken start offset defect ∧ fault = .malformed offset defect

namespace Breaks

variable {α β : Type} {raw : Octets}

/-- The defects may be described in any equivalent way. -/
theorem of_iff {read : Cursor → Except Fault (α × Cursor)}
    {Broken Broken' : Nat → Nat → Defect → Prop} (h : Breaks raw read Broken)
    (hbroken : ∀ start offset defect, Broken start offset defect ↔ Broken' start offset defect) :
    Breaks raw read Broken' := by
  intro start fault
  simp only [h start fault, hbroken]

/-- Yielding an item without reading has no defect. -/
theorem pure (item : α) :
    Breaks raw (fun cursor => Pure.pure (item, cursor)) fun _ _ _ => False := by
  intro start fault
  simp [Pure.pure, Except.pure]

/-- A field is defective when it is too short; otherwise the defect is in what follows it. -/
theorem field_bind (n : Nat) (interpret : Nat → Octets → α)
    {next : α × Cursor → Except Fault (β × Cursor)} {Broken : α → Nat → Nat → Defect → Prop}
    (hnext : ∀ item, Breaks raw (fun cursor => next (item, cursor)) (Broken item)) :
    Breaks raw
      (fun cursor => (cursor.field n >>= fun taken =>
        Pure.pure (interpret cursor.position taken.1, taken.2)) >>= next)
      fun start offset defect =>
        if n ≤ raw.length - start then
          Broken (interpret start (raw.slice start n)) (start + n) offset defect
        else offset = start ∧ defect = .endOfInput := by
  intro start fault
  simp only [field_within]
  by_cases hfits : n ≤ raw.length - start
  · rw [if_pos hfits]
    simp only [if_pos hfits]
    exact hnext _ _ _
  · rw [if_neg hfits]
    simp only [if_neg hfits]
    constructor
    · intro h
      cases h
      exact ⟨start, .endOfInput, ⟨rfl, rfl⟩, rfl⟩
    · rintro ⟨_, _, ⟨rfl, rfl⟩, rfl⟩
      rfl

/-- A last field is defective when it is too short. -/
theorem field (n : Nat) (interpret : Nat → Octets → α) :
    Breaks raw
      (fun cursor => cursor.field n >>= fun taken =>
        Pure.pure (interpret cursor.position taken.1, taken.2)) (raw.CutsAt [n]) := by
  have h : Breaks raw _ _ := field_bind n interpret fun item => pure item
  simp only [bind_pure] at h
  exact h

/-- A one octet field in front of others. -/
theorem field8_bind {next : UInt8 × Cursor → Except Fault (β × Cursor)}
    {Broken : UInt8 → Nat → Nat → Defect → Prop}
    (hnext : ∀ item, Breaks raw (fun cursor => next (item, cursor)) (Broken item)) :
    Breaks raw (fun cursor => cursor.field8 >>= next) fun start offset defect =>
      if 1 ≤ raw.length - start then
        Broken (.ofNat (raw.number start 1)) (start + 1) offset defect
      else offset = start ∧ defect = .endOfInput :=
  field_bind 1 (fun _ octets => UInt8.ofNat (Octets.value octets)) hnext

/-- A two octet field in front of others. -/
theorem field16_bind {next : UInt16 × Cursor → Except Fault (β × Cursor)}
    {Broken : UInt16 → Nat → Nat → Defect → Prop}
    (hnext : ∀ item, Breaks raw (fun cursor => next (item, cursor)) (Broken item)) :
    Breaks raw (fun cursor => cursor.field16 >>= next) fun start offset defect =>
      if 2 ≤ raw.length - start then
        Broken (.ofNat (raw.number start 2)) (start + 2) offset defect
      else offset = start ∧ defect = .endOfInput :=
  field_bind 2 (fun _ octets => UInt16.ofNat (Octets.value octets)) hnext

/-- A four octet field in front of others. -/
theorem field32_bind {next : UInt32 × Cursor → Except Fault (β × Cursor)}
    {Broken : UInt32 → Nat → Nat → Defect → Prop}
    (hnext : ∀ item, Breaks raw (fun cursor => next (item, cursor)) (Broken item)) :
    Breaks raw (fun cursor => cursor.field32 >>= next) fun start offset defect =>
      if 4 ≤ raw.length - start then
        Broken (.ofNat (raw.number start 4)) (start + 4) offset defect
      else offset = start ∧ defect = .endOfInput :=
  field_bind 4 (fun _ octets => UInt32.ofNat (Octets.value octets)) hnext

/-- A defect lies in the first item, or behind it in what is read next. -/
theorem bind {first : Cursor → Except Fault (α × Cursor)}
    {next : α × Cursor → Except Fault (β × Cursor)} {Fits : α → Nat → Nat → Prop}
    {Broken : Nat → Nat → Defect → Prop} {Broken' : α → Nat → Nat → Defect → Prop}
    (hreads : Reads raw first Fits) (hfirst : Breaks raw first Broken)
    (hnext : ∀ item, Breaks raw (fun cursor => next (item, cursor)) (Broken' item)) :
    Breaks raw (fun cursor => first cursor >>= next) fun start offset defect =>
      Broken start offset defect ∨
        ∃ item middle, Fits item start middle ∧ Broken' item middle offset defect := by
  intro start fault
  rw [bind_eq_error_iff, hfirst start fault]
  constructor
  · rintro (⟨offset, defect, hbroken, rfl⟩ | ⟨⟨item, cursor⟩, hitem, hfault⟩)
    · exact ⟨offset, defect, .inl hbroken, rfl⟩
    · obtain ⟨middle, hfits, rfl⟩ := (hreads _ _ _).mp hitem
      obtain ⟨offset, defect, hbroken, rfl⟩ := (hnext _ _ _).mp hfault
      exact ⟨offset, defect, .inr ⟨item, middle, hfits, hbroken⟩, rfl⟩
  · rintro ⟨offset, defect, hbroken | ⟨item, middle, hfits, hbroken⟩, rfl⟩
    · exact .inl ⟨offset, defect, hbroken, rfl⟩
    · have hitem := (hreads start item _).mpr ⟨middle, hfits, rfl⟩
      have hfault := (hnext item middle _).mpr ⟨offset, defect, hbroken, rfl⟩
      exact .inr ⟨(item, within raw middle), hitem, hfault⟩

/-- Of a counted number of items, the first defective one is reported; those in front of it tile
a stretch of the message. -/
theorem many {read : Cursor → Except Fault (α × Cursor)} {Fits : α → Nat → Nat → Prop}
    {Broken : Nat → Nat → Defect → Prop} (hreads : Reads raw read Fits)
    (h : Breaks raw read Broken) (count : Nat) :
    Breaks raw (Cursor.many read count) fun start offset defect =>
      ∃ items next, items.length < count ∧ Tiled Fits start items next ∧
        Broken next offset defect := by
  induction count with
  | zero =>
    refine (pure []).of_iff fun start offset defect => ?_
    simp
  | succ count ih =>
    refine (bind hreads h fun first => bind (hreads.many count) ih fun others =>
      pure (first :: others)).of_iff fun start offset defect => ⟨?_, ?_⟩
    · rintro (hbroken | ⟨first, middle, hfirst, ⟨items, next, hcount, htiled, hbroken⟩ | hfalse⟩)
      · exact ⟨[], start, Nat.succ_pos count, .nil start, hbroken⟩
      · exact ⟨first :: items, next, Nat.succ_lt_succ hcount, .cons hfirst htiled, hbroken⟩
      · obtain ⟨_, _, _, hfalse⟩ := hfalse
        exact hfalse.elim
    · rintro ⟨items, next, hcount, htiled, hbroken⟩
      cases htiled with
      | nil => exact .inl hbroken
      | cons hfirst hothers =>
        exact .inr ⟨_, _, hfirst, .inl ⟨_, _, Nat.lt_of_succ_lt_succ hcount, hothers, hbroken⟩⟩

end Breaks

end Cursor

/-- The run from `start` on is complete up to `offset`, and defective there. -/
inductive Run.BrokenAt (raw : Octets) : Nat → Nat → Defect → Prop
  /-- A length octet is due behind the last octet. -/
  | missing {start : Nat} (ends : raw.length ≤ start) : BrokenAt raw start start .endOfInput
  /-- A length octet has the top bits 01 or 10. -/
  | reserved {start : Nat} {octet : UInt8} (stands : raw[start]? = some octet)
      (bits : 64 ≤ octet.toNat ∧ octet.toNat < 192) : BrokenAt raw start start .reservedLength
  /-- A pointer lacks its second octet. -/
  | halfPointer {start : Nat} {octet : UInt8} (stands : raw[start]? = some octet)
      (bits : 192 ≤ octet.toNat) (ends : raw.length = start + 1) :
      BrokenAt raw start start .endOfInput
  /-- A label passes the end of the message. -/
  | shortLabel {start : Nat} {octet : UInt8} (stands : raw[start]? = some octet)
      (bits : 0 < octet.toNat ∧ octet.toNat < 64)
      (ends : raw.length < start + 1 + octet.toNat) : BrokenAt raw start (start + 1) .endOfInput
  /-- A label is complete, and what follows it is defective. -/
  | behind {start offset : Nat} {octet : UInt8} {defect : Defect}
      (stands : raw[start]? = some octet) (bits : 0 < octet.toNat ∧ octet.toNat < 64)
      (inside : start + 1 + octet.toNat ≤ raw.length)
      (rest : BrokenAt raw (start + 1 + octet.toNat) offset defect) :
      BrokenAt raw start offset defect

/-- The octet at the cursor and what lies behind it. -/
theorem Octets.drop_eq_cons_iff {raw behind : Octets} {position : Nat} {octet : UInt8} :
    raw.drop position = octet :: behind ↔
      raw[position]? = some octet ∧ raw.drop (position + 1) = behind := by
  constructor
  · intro h
    have hhead := congrArg List.head? h
    have htail := congrArg List.tail h
    rw [List.head?_drop, List.head?_cons] at hhead
    rw [List.tail_drop, List.tail_cons] at htail
    exact ⟨hhead, htail⟩
  · rintro ⟨hoctet, rfl⟩
    obtain ⟨hinside, rfl⟩ := List.getElem?_eq_some_iff.mp hoctet
    exact List.drop_eq_getElem_cons hinside

/-- The three kinds of lead by the number of the octet. -/
theorem Lead.ofOctet_eq_reserved_iff {octet : UInt8} :
    ofOctet octet = .reserved ↔ 64 ≤ octet.toNat ∧ octet.toNat < 192 := by
  unfold ofOctet
  split
  · simp only [reduceCtorEq, false_iff]
    omega
  · split <;> simp only [reduceCtorEq, true_iff, false_iff] <;> omega

namespace Run

/-- Where a run is broken, reading it is refused for that defect. -/
theorem read_of_brokenAt {raw : Octets} {start offset : Nat} {defect : Defect}
    (h : BrokenAt raw start offset defect) :
    read start (raw.drop start) = .error (.malformed offset defect) := by
  induction h with
  | @missing start ends =>
    rw [List.drop_eq_nil_of_le ends, read]
  | @reserved start octet stands bits =>
    rw [Octets.drop_eq_cons_iff.mpr ⟨stands, rfl⟩, read, Lead.ofOctet_eq_reserved_iff.mpr bits]
  | @halfPointer start octet stands bits ends =>
    have hlead : Lead.ofOctet octet = .pointer (octet.toNat - 192) := by
      rw [Lead.ofOctet, if_neg (by omega), if_neg (by omega)]
    have hbehind : raw.drop (start + 1) = [] := List.drop_eq_nil_of_le (by omega)
    rw [Octets.drop_eq_cons_iff.mpr ⟨stands, hbehind⟩, read, hlead]
  | @shortLabel start octet stands bits ends =>
    obtain ⟨length, hlength⟩ : ∃ length, octet.toNat = length + 1 := ⟨octet.toNat - 1, by omega⟩
    have hlead : Lead.ofOctet octet = .label (length + 1) := by
      rw [Lead.ofOctet, if_pos (by omega), hlength]
    have hsplit : Octets.split? (length + 1) (raw.drop (start + 1)) = none := by
      rw [Octets.split?_eq_none_iff, List.length_drop]
      omega
    rw [Octets.drop_eq_cons_iff.mpr ⟨stands, rfl⟩, read, hlead]
    simp only
    split
    · rfl
    · rename_i hsome
      rw [hsplit] at hsome
      cases hsome
  | @behind start offset octet defect stands bits inside rest ih =>
    have hlength : (raw.slice (start + 1) octet.toNat).length = octet.toNat := by
      rw [Octets.length_slice]
      omega
    have hwire : raw.drop start =
        labelWire (raw.slice (start + 1) octet.toNat) ++ raw.drop (start + 1 + octet.toNat) := by
      rw [labelWire, hlength, UInt8.ofNat_toNat, List.cons_append, Octets.slice,
        ← List.drop_drop (i := octet.toNat), List.take_append_drop]
      exact Octets.drop_eq_cons_iff.mpr ⟨stands, rfl⟩
    rw [hwire, read_label start (by omega), hlength, ih]
    rfl

/-- A run that is refused is broken, at the defect that is reported. -/
theorem brokenAt_of_read {position : Nat} {octets raw : Octets} {fault : Fault}
    (h : read position octets = .error fault) (hoctets : raw.drop position = octets) :
    ∃ offset defect, BrokenAt raw position offset defect ∧ fault = .malformed offset defect := by
  fun_induction read position octets with
  | case1 position =>
    cases h
    exact ⟨_, _, .missing (List.drop_eq_nil_iff.mp hoctets), rfl⟩
  | case2 position first behind hlead =>
    cases h
    obtain ⟨stands, -⟩ := Octets.drop_eq_cons_iff.mp hoctets
    exact ⟨_, _, .reserved stands (Lead.ofOctet_eq_reserved_iff.mp hlead), rfl⟩
  | case3 position first high hlead =>
    cases h
    obtain ⟨stands, hbehind⟩ := Octets.drop_eq_cons_iff.mp hoctets
    obtain ⟨hinside, -⟩ := List.getElem?_eq_some_iff.mp stands
    have hends := List.drop_eq_nil_iff.mp hbehind
    have hbits := toNat_of_ofOctet_pointer hlead
    exact ⟨_, _, .halfPointer stands (by omega) (by omega), rfl⟩
  | case4 => cases h
  | case5 => cases h
  | case6 position first behind length hlead hsplit =>
    cases h
    obtain ⟨stands, rfl⟩ := Octets.drop_eq_cons_iff.mp hoctets
    have hbits := toNat_of_ofOctet_label hlead
    rw [Octets.split?_eq_none_iff, List.length_drop] at hsplit
    exact ⟨_, _, .shortLabel stands (by omega) (by omega), rfl⟩
  | case7 position first behind length hlead label back hsplit ih =>
    obtain ⟨stands, hbehind⟩ := Octets.drop_eq_cons_iff.mp hoctets
    obtain ⟨hfirst, hle⟩ := toNat_of_ofOctet_label hlead
    obtain ⟨hlabel, hlength⟩ := Octets.split?_eq_some_iff.mp hsplit
    have hback : raw.drop (position + 1 + (length + 1)) = back := by
      rw [← List.drop_drop, hbehind, hlabel, ← hlength, List.drop_left]
    have hinside : position + 1 + first.toNat ≤ raw.length := by
      have hlengths := congrArg List.length (hbehind.trans hlabel)
      rw [List.length_drop, List.length_append] at hlengths
      omega
    rcases bind_eq_error_iff.mp h with hrest | ⟨_, -, hpure⟩
    · obtain ⟨offset, defect, hbroken, rfl⟩ := ih hrest hback
      rw [show length + 1 = first.toNat from hfirst.symm] at hbroken
      exact ⟨offset, defect, .behind stands (by omega) hinside hbroken, rfl⟩
    · cases hpure

/-- Reading a run is refused exactly where it is broken. -/
theorem breaks (raw : Octets) : Cursor.Breaks raw Cursor.readRun (BrokenAt raw) := by
  intro start fault
  constructor
  · intro h
    exact brokenAt_of_read h rfl
  · rintro ⟨offset, defect, hbroken, rfl⟩
    exact read_of_brokenAt hbroken

end Run

/-- A question is defective in its name, or in the two codes behind it. -/
def Question.BrokenAt (raw : Octets) (start offset : Nat) (defect : Defect) : Prop :=
  Run.BrokenAt raw start offset defect ∨
    ∃ (run : Run) (used : Nat), run.StandsAt raw start used ∧
      raw.CutsAt [2, 2] (start + used) offset defect

/-- A record is defective in its name, in the fields behind it, or in its data, which is as long
as the last of the fields tells. -/
def Record.BrokenAt (raw : Octets) (start offset : Nat) (defect : Defect) : Prop :=
  Run.BrokenAt raw start offset defect ∨
    ∃ (run : Run) (used : Nat), run.StandsAt raw start used ∧
      raw.CutsAt [2, 2, 4, 2, raw.number (start + used + 8) 2] (start + used) offset defect

/-- A header is defective where it is cut off. -/
def Header.BrokenAt (raw : Octets) (start offset : Nat) (defect : Defect) : Prop :=
  raw.CutsAt [2, 1, 1, 2, 2, 2, 2] start offset defect

section Items

variable {raw : Octets}

/-- What begins with a name is defective in the name or behind it. -/
theorem Run.breaks_bind {α : Type} {next : Run × Cursor → Except Fault (α × Cursor)}
    {Broken : Run → Nat → Nat → Defect → Prop}
    (hnext : ∀ run, Cursor.Breaks raw (fun cursor => next (run, cursor)) (Broken run)) :
    Cursor.Breaks raw (fun cursor => cursor.readRun >>= next) fun start offset defect =>
      Run.BrokenAt raw start offset defect ∨
        ∃ (run : Run) (used : Nat), run.StandsAt raw start used ∧
          Broken run (start + used) offset defect := by
  refine (Cursor.Breaks.bind (Run.reads raw) (Run.breaks raw) hnext).of_iff
    fun start offset defect => ⟨?_, ?_⟩
  · rintro (hname | ⟨run, _, ⟨hstands, rfl⟩, hbroken⟩)
    · exact .inl hname
    · exact .inr ⟨run, run.size, ⟨hstands, rfl⟩, hbroken⟩
  · rintro (hname | ⟨run, _, ⟨hstands, rfl⟩, hbroken⟩)
    · exact .inl hname
    · exact .inr ⟨run, _, ⟨hstands, rfl⟩, hbroken⟩

/-- A question is refused exactly where it is broken. -/
theorem Question.breaks (raw : Octets) :
    Cursor.Breaks raw Question.read (Question.BrokenAt raw) := by
  refine (Run.breaks_bind fun name => Cursor.Breaks.field16_bind fun type =>
    Cursor.Breaks.field16_bind fun cls =>
      .pure (Question.mk name (.ofCode type) (.ofCode cls))).of_iff fun start offset defect => ?_
  rfl

/-- A record is refused exactly where it is broken. -/
theorem Record.breaks (raw : Octets) : Cursor.Breaks raw Record.read (Record.BrokenAt raw) := by
  refine (Run.breaks_bind fun name => Cursor.Breaks.field16_bind fun type =>
    Cursor.Breaks.field16_bind fun cls => Cursor.Breaks.field32_bind fun ttl =>
      Cursor.Breaks.field16_bind fun rdlength =>
        Cursor.Breaks.field rdlength.toNat fun position rdata =>
          Record.mk name (.ofCode type) (.ofCode cls) ttl rdata position).of_iff
            fun start offset defect => ?_
  simp only [Octets.toNat_ofNat_number_two]
  rfl

/-- A header is refused exactly where it is broken. -/
theorem Header.breaks (raw : Octets) : Cursor.Breaks raw Header.read (Header.BrokenAt raw) := by
  refine (Cursor.Breaks.field16_bind fun id => Cursor.Breaks.field8_bind fun high =>
    Cursor.Breaks.field8_bind fun low => Cursor.Breaks.field16_bind fun questions =>
      Cursor.Breaks.field16_bind fun answers => Cursor.Breaks.field16_bind fun authority =>
        Cursor.Breaks.field16_bind fun additional => .pure
          (ofWire id high low, SectionSizes.mk questions answers authority additional)).of_iff
            fun start offset defect => ?_
  rfl

end Items

section Bodies

variable {ν : Type}

/-- The sections of the body in front of this one are full, this one lacks an item, and those
behind it are empty. -/
def Body.LacksItemOf (sizes : SectionSizes) (body : Body ν) : Section → Prop
  | .question =>
      body.questions.length < sizes.questions.toNat ∧ body.answers = [] ∧ body.authority = [] ∧
        body.additional = []
  | .answer =>
      body.questions.length = sizes.questions.toNat ∧
        body.answers.length < sizes.answers.toNat ∧ body.authority = [] ∧ body.additional = []
  | .authority =>
      body.questions.length = sizes.questions.toNat ∧
        body.answers.length = sizes.answers.toNat ∧
        body.authority.length < sizes.authority.toNat ∧ body.additional = []
  | .additional =>
      body.questions.length = sizes.questions.toNat ∧
        body.answers.length = sizes.answers.toNat ∧
        body.authority.length = sizes.authority.toNat ∧
        body.additional.length < sizes.additional.toNat

/-- An item of a section is defective. -/
def Section.ItemBrokenAt (raw : Octets) : Section → Nat → Nat → Defect → Prop
  | .question => Question.BrokenAt raw
  | _ => Record.BrokenAt raw

/-- The items of a body are complete up to one that is still announced, and that one is
defective. -/
def Body.BrokenAt (raw : Octets) (sizes : SectionSizes) (start offset : Nat) (defect : Defect) :
    Prop :=
  ∃ (body : Body Run) (part : Section) (next : Nat),
    body.WrittenAt raw (Run.StandsAt raw) start next ∧ body.LacksItemOf sizes part ∧
      part.ItemBrokenAt raw next offset defect

/-- A body is refused exactly where it is broken. -/
theorem Body.breaks (raw : Octets) (sizes : SectionSizes) :
    Cursor.Breaks raw (Body.read sizes) (Body.BrokenAt raw sizes) := by
  have hreads := (Record.reads raw).many
  have hbreaks := Cursor.Breaks.many (Record.reads raw) (Record.breaks raw)
  refine (Cursor.Breaks.bind ((Question.reads raw).many sizes.questions.toNat)
    (.many (Question.reads raw) (Question.breaks raw) _) fun questions =>
      .bind (hreads sizes.answers.toNat) (hbreaks _) fun answers =>
        .bind (hreads sizes.authority.toNat) (hbreaks _) fun authority =>
          .bind (hreads sizes.additional.toNat) (hbreaks _) fun additional =>
            .pure (Body.mk questions answers authority additional)).of_iff
              fun start offset defect => ⟨?_, ?_⟩
  · rintro (⟨questions, next, lacks, tiled₁, hbroken⟩ | ⟨questions, _, ⟨hlength₁, tiled₁⟩, h⟩)
    · exact ⟨⟨questions, [], [], []⟩, .question, next,
        ⟨_, _, _, tiled₁, .nil _, .nil _, .nil _⟩, ⟨lacks, rfl, rfl, rfl⟩, hbroken⟩
    obtain ⟨answers, next, lacks, tiled₂, hbroken⟩ | ⟨answers, _, ⟨hlength₂, tiled₂⟩, h⟩ := h
    · exact ⟨⟨questions, answers, [], []⟩, .answer, next,
        ⟨_, _, _, tiled₁, tiled₂, .nil _, .nil _⟩, ⟨hlength₁, lacks, rfl, rfl⟩, hbroken⟩
    obtain ⟨authority, next, lacks, tiled₃, hbroken⟩ | ⟨authority, _, ⟨hlength₃, tiled₃⟩, h⟩ := h
    · exact ⟨⟨questions, answers, authority, []⟩, .authority, next,
        ⟨_, _, _, tiled₁, tiled₂, tiled₃, .nil _⟩, ⟨hlength₁, hlength₂, lacks, rfl⟩, hbroken⟩
    obtain ⟨additional, next, lacks, tiled₄, hbroken⟩ | ⟨_, _, _, hfalse⟩ := h
    · exact ⟨⟨questions, answers, authority, additional⟩, .additional, next,
        ⟨_, _, _, tiled₁, tiled₂, tiled₃, tiled₄⟩, ⟨hlength₁, hlength₂, hlength₃, lacks⟩, hbroken⟩
    · exact hfalse.elim
  · rintro ⟨⟨questions, answers, authority, additional⟩, part, next,
      ⟨_, _, _, tiled₁, tiled₂, tiled₃, tiled₄⟩, hlacks, hbroken⟩
    cases part with
    | question =>
      obtain ⟨lacks, rfl, rfl, rfl⟩ := hlacks
      cases tiled₂; cases tiled₃; cases tiled₄
      exact .inl ⟨questions, _, lacks, tiled₁, hbroken⟩
    | answer =>
      obtain ⟨hlength₁, lacks, rfl, rfl⟩ := hlacks
      cases tiled₃; cases tiled₄
      exact .inr ⟨_, _, ⟨hlength₁, tiled₁⟩, .inl ⟨_, _, lacks, tiled₂, hbroken⟩⟩
    | authority =>
      obtain ⟨hlength₁, hlength₂, lacks, rfl⟩ := hlacks
      cases tiled₄
      exact .inr ⟨_, _, ⟨hlength₁, tiled₁⟩, .inr ⟨_, _, ⟨hlength₂, tiled₂⟩,
        .inl ⟨_, _, lacks, tiled₃, hbroken⟩⟩⟩
    | additional =>
      obtain ⟨hlength₁, hlength₂, hlength₃, lacks⟩ := hlacks
      exact .inr ⟨_, _, ⟨hlength₁, tiled₁⟩, .inr ⟨_, _, ⟨hlength₂, tiled₂⟩,
        .inr ⟨_, _, ⟨hlength₃, tiled₃⟩, .inl ⟨_, _, lacks, tiled₄, hbroken⟩⟩⟩⟩

end Bodies

/-- An envelope from `start` on is defective in its header, or behind a complete header in its
items. -/
def Envelope.BrokenAt (raw : Octets) (start offset : Nat) (defect : Defect) : Prop :=
  Header.BrokenAt raw start offset defect ∨
    ∃ (header : Header) (sizes : SectionSizes) (bodyAt : Nat),
      header.WrittenAt raw sizes start bodyAt ∧ Body.BrokenAt raw sizes bodyAt offset defect

/-- An envelope is refused exactly where it is broken. -/
theorem Envelope.breaks (raw : Octets) :
    Cursor.Breaks raw Envelope.read (Envelope.BrokenAt raw) := by
  refine (Cursor.Breaks.bind (Header.reads raw) (Header.breaks raw) fun read =>
    .bind (Body.reads raw read.2) (Body.breaks raw read.2) fun body =>
      .pure (Envelope.mk read.1 body)).of_iff fun start offset defect => ⟨?_, ?_⟩
  · rintro (hheader | ⟨⟨header, sizes⟩, bodyAt, hheader, hbody | ⟨_, _, _, hfalse⟩⟩)
    · exact .inl hheader
    · exact .inr ⟨header, sizes, bodyAt, hheader, hbody⟩
    · exact hfalse.elim
  · rintro (hheader | ⟨header, sizes, bodyAt, hheader, hbody⟩)
    · exact .inl hheader
    · exact .inr ⟨(header, sizes), bodyAt, hheader, .inl hbody⟩

end DnsTrace
