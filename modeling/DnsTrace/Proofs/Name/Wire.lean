import DnsTrace.Name.Run
import DnsTrace.Proofs.Reading

/-!
# The wire form of a run

A run is written as its labels, each behind its length octet, and a closing: one zero octet,
or the two octets of a pointer under the top bits 11. Lengths are 1 to 63 and pointers
fourteen bits, which is what keeps the three kinds of element apart.

Reading a run accepts exactly the well formed runs, each from its own wire form and nothing
else; so at any place at most one run can stand.
-/

namespace DnsTrace

namespace Run

/-- A label behind its length octet. -/
def labelWire (label : Label) : Octets := .ofNat label.length :: label

/-- What closes a run: a zero octet, or a pointer. -/
def closing : Option Nat → Octets
  | none => [0]
  | some target => [.ofNat (192 + target / 256), .ofNat target]

/-- The octets in which a run is written. -/
def wire (run : Run) : Octets := run.labels.flatMap labelWire ++ closing run.target

/-- Labels and pointers that have a wire form. -/
structure WellFormed (run : Run) : Prop where
  label_length : ∀ label ∈ run.labels, 1 ≤ label.length ∧ label.length ≤ 63
  target_lt : ∀ target ∈ run.target, target < 16384

/-- The run stands at the front of the window, complete. -/
def LiesIn (window : Octets) (run : Run) : Prop := run.WellFormed ∧ run.wire <+: window

/-- A label more is written in front. -/
theorem wire_cons (label : Label) (run : Run) :
    (run.cons label).wire = labelWire label ++ run.wire := by
  simp only [wire, cons, List.flatMap_cons, List.append_assoc]

/-- A label more has a wire form when it is of one to 63 octets. -/
theorem wellFormed_cons {label : Label} {run : Run} :
    (run.cons label).WellFormed ↔
      (1 ≤ label.length ∧ label.length ≤ 63) ∧ run.WellFormed := by
  refine ⟨fun h => ?_, fun h => ?_⟩
  · obtain ⟨hlabel, hlabels⟩ := List.forall_mem_cons.mp h.label_length
    exact ⟨hlabel, hlabels, h.target_lt⟩
  · obtain ⟨hlabel, hrun⟩ := h
    exact ⟨List.forall_mem_cons.mpr ⟨hlabel, hrun.label_length⟩, hrun.target_lt⟩

/-- The size of a run is the length of its wire form. -/
theorem length_wire (run : Run) : run.wire.length = run.size := by
  obtain ⟨labels, target⟩ := run
  induction labels with
  | nil => cases target <;> rfl
  | cons label labels ih =>
    change (cons label ⟨labels, target⟩).wire.length = (cons label ⟨labels, target⟩).size
    rw [wire_cons, size_cons, List.length_append, ih, labelWire, List.length_cons]

/-- A length octet announces its label. -/
theorem ofOctet_length {length : Nat} (h : length ≤ 63) :
    Lead.ofOctet (.ofNat length) = .label length := by
  have hvalue : (UInt8.ofNat length).toNat = length :=
    UInt8.toNat_ofNat_of_lt' (by simp only [UInt8.size]; omega)
  rw [Lead.ofOctet, hvalue, if_pos (by omega)]

/-- The first octet of a pointer announces its upper bits. -/
theorem ofOctet_pointer {target : Nat} (h : target < 16384) :
    Lead.ofOctet (.ofNat (192 + target / 256)) = .pointer (target / 256) := by
  have hvalue : (UInt8.ofNat (192 + target / 256)).toNat = 192 + target / 256 :=
    UInt8.toNat_ofNat_of_lt' (by simp only [UInt8.size]; omega)
  rw [Lead.ofOctet, hvalue, if_neg (by omega), if_neg (by omega), Nat.add_sub_cancel_left]

/-- Only a length octet below 64 announces a label. -/
theorem toNat_of_ofOctet_label {octet : UInt8} {length : Nat}
    (h : Lead.ofOctet octet = .label length) : octet.toNat = length ∧ length ≤ 63 := by
  simp only [Lead.ofOctet] at h
  split at h
  · cases h
    omega
  · split at h <;> cases h

/-- Only an octet from 192 on announces a pointer. -/
theorem toNat_of_ofOctet_pointer {octet : UInt8} {high : Nat}
    (h : Lead.ofOctet octet = .pointer high) : octet.toNat = 192 + high := by
  simp only [Lead.ofOctet] at h
  split at h
  · cases h
  · split at h
    · cases h
    · obtain rfl := Lead.pointer.inj h
      omega

/-- A zero octet closes the name. -/
theorem read_zero (position : Nat) (rest : Octets) :
    read position (0 :: rest) = .ok (⟨[], none⟩, ⟨position + 1, rest⟩) := by
  rw [read]
  rfl

/-- A pointer closes the run. -/
theorem read_pointer (position : Nat) {target : Nat} (h : target < 16384) (rest : Octets) :
    read position (closing (some target) ++ rest) =
      .ok (⟨[], some target⟩, ⟨position + 2, rest⟩) := by
  have hlow : (UInt8.ofNat target).toNat = target % 256 := UInt8.toNat_ofNat'
  simp only [closing, List.cons_append, List.nil_append]
  rw [read, ofOctet_pointer h]
  simp only [hlow]
  congr 4
  omega

/-- A label stands in front of the run that is read behind it. -/
theorem read_label (position : Nat) {label : Label} (h : 1 ≤ label.length ∧ label.length ≤ 63)
    (rest : Octets) :
    read position (labelWire label ++ rest) =
      (read (position + 1 + label.length) rest).map fun taken =>
        (taken.1.cons label, taken.2) := by
  have hsplit : Octets.split? label.length (label ++ rest) = some (label, rest) :=
    Octets.split?_eq_some_iff.mpr ⟨rfl, rfl⟩
  obtain ⟨length, hlength⟩ : ∃ length, label.length = length + 1 :=
    ⟨label.length - 1, by omega⟩
  rw [hlength] at hsplit
  rw [labelWire, List.cons_append, read, ofOctet_length h.2, hlength]
  simp only
  -- The recursion of `read` remembers which split it took, so the split is resolved by cases.
  split
  · rename_i hnone
    rw [hnone] at hsplit
    cases hsplit
  · rename_i front back hsome
    rw [hsome] at hsplit
    cases hsplit
    cases read (position + 1 + (length + 1)) rest <;> rfl

/-- A run is read from its wire form, whatever follows it. -/
theorem read_wire {run : Run} (h : run.WellFormed) (position : Nat) (rest : Octets) :
    read position (run.wire ++ rest) = .ok (run, ⟨position + run.size, rest⟩) := by
  obtain ⟨labels, target⟩ := run
  induction labels generalizing position with
  | nil =>
    cases target with
    | none => exact read_zero position rest
    | some target => exact read_pointer position (h.target_lt target rfl) rest
  | cons label labels ih =>
    change (cons label ⟨labels, target⟩).WellFormed at h
    change read position ((cons label ⟨labels, target⟩).wire ++ rest) =
      .ok (cons label ⟨labels, target⟩, ⟨position + (cons label ⟨labels, target⟩).size, rest⟩)
    obtain ⟨hlabel, hrest⟩ := wellFormed_cons.mp h
    rw [wire_cons, List.append_assoc, read_label position hlabel, ih _ hrest, size_cons]
    simp only [Except.map, Except.ok.injEq, Prod.mk.injEq, Cursor.mk.injEq, true_and, and_true]
    omega

/-- What is read is a well formed run, and the octets begin with its wire form. -/
theorem wire_of_read {position : Nat} {octets : Octets} {run : Run} {cursor : Cursor}
    (h : read position octets = .ok (run, cursor)) :
    run.WellFormed ∧ octets = run.wire ++ cursor.rest := by
  fun_induction read position octets generalizing run with
  | case1 => cases h
  | case2 => cases h
  | case3 => cases h
  | case4 position first high hlead low back =>
    cases h
    have hhigh := toNat_of_ofOctet_pointer hlead
    have hfirst := first.toNat_lt
    have hlow := low.toNat_lt
    refine ⟨⟨by simp, ?_⟩, ?_⟩
    · intro target htarget
      obtain rfl := Option.some.inj htarget
      omega
    · have hdiv : (high * 256 + low.toNat) / 256 = high := by omega
      have hlowOctet : UInt8.ofNat (high * 256 + low.toNat) = low := by
        apply UInt8.toNat_inj.mp
        rw [UInt8.toNat_ofNat']
        omega
      rw [wire, closing, hdiv, hlowOctet, ← hhigh, UInt8.ofNat_toNat]
      rfl
  | case5 position first behind hlead =>
    cases h
    have hfirst : first = 0 := UInt8.toNat_inj.mp (toNat_of_ofOctet_label hlead).1
    rw [hfirst]
    exact ⟨⟨by simp, by simp⟩, rfl⟩
  | case6 => cases h
  | case7 position first behind length hlead label back hsplit ih =>
    obtain ⟨⟨inner, next⟩, hread, hpure⟩ := bind_eq_ok_iff.mp h
    cases hpure
    obtain ⟨rfl, hlength⟩ := Octets.split?_eq_some_iff.mp hsplit
    obtain ⟨hwell, rfl⟩ := ih hread
    obtain ⟨hfirst, hle⟩ := toNat_of_ofOctet_label hlead
    refine ⟨wellFormed_cons.mpr ⟨by omega, hwell⟩, ?_⟩
    rw [wire_cons, labelWire, hlength, ← Nat.succ_eq_add_one, ← hfirst, UInt8.ofNat_toNat]
    simp only [List.cons_append, List.append_assoc]

/-- Reading accepts exactly the wire forms of well formed runs. -/
theorem read_eq_ok_iff {position : Nat} {octets : Octets} {run : Run} {cursor : Cursor} :
    read position octets = .ok (run, cursor) ↔
      run.WellFormed ∧ octets = run.wire ++ cursor.rest ∧
        cursor.position = position + run.size := by
  refine ⟨fun h => ?_, fun h => ?_⟩
  · obtain ⟨hwell, hoctets⟩ := wire_of_read h
    exact ⟨hwell, hoctets, (size_of_read h).1⟩
  · obtain ⟨hwell, hoctets, hposition⟩ := h
    rw [hoctets, read_wire hwell, ← hposition]

/-- At most one run stands at the front of a window. -/
theorem LiesIn.unique {window : Octets} {run run' : Run} (h : run.LiesIn window)
    (h' : run'.LiesIn window) : run = run' := by
  obtain ⟨hwell, rest, rfl⟩ := h
  obtain ⟨hwell', rest', hwire⟩ := h'
  have hread := read_wire hwell 0 rest
  rw [← hwire, read_wire hwell' 0 rest'] at hread
  cases hread
  rfl

/-- A run takes up a part of its window. -/
theorem LiesIn.size_le {window : Octets} {run : Run} (h : run.LiesIn window) :
    run.size ≤ window.length := by
  rw [← length_wire]
  exact h.2.length_le

/-- A run stands at the front of a window exactly when it is read there, at any position. -/
theorem liesIn_iff_read {window : Octets} {run : Run} (position : Nat) :
    run.LiesIn window ↔ ∃ cursor, read position window = .ok (run, cursor) := by
  refine ⟨fun h => ?_, fun h => ?_⟩
  · obtain ⟨hwell, rest, rfl⟩ := h
    exact ⟨_, read_wire hwell position rest⟩
  · obtain ⟨cursor, hread⟩ := h
    obtain ⟨hwell, hwindow⟩ := wire_of_read hread
    exact ⟨hwell, cursor.rest, hwindow.symm⟩

/-- No run stands where no octet is left. -/
theorem not_liesIn_nil (run : Run) : ¬ run.LiesIn [] := by
  intro h
  exact Nat.not_le_of_lt run.size_pos h.size_le

/-- A run stays where it is when its window is continued. -/
theorem LiesIn.of_prefix {window wider : Octets} {run : Run} (h : run.LiesIn window)
    (hwider : window <+: wider) : run.LiesIn wider :=
  ⟨h.1, h.2.trans hwider⟩

/-- A run that ends before a bound stands where it is without the bound. -/
theorem LiesIn.of_between {raw : Octets} {offset bound : Nat} {run : Run}
    (h : run.LiesIn (raw.between offset bound)) : run.LiesIn (raw.drop offset) := by
  rw [Octets.between, List.drop_take] at h
  exact h.of_prefix (List.take_prefix _ _)

end Run

end DnsTrace
