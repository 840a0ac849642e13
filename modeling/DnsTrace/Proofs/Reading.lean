import DnsTrace.Cursor
import Mathlib.Algebra.Order.Ring.Nat
import Mathlib.Data.List.Induction
import Mathlib.Data.List.Forall2

/-!
# Reading at a position of a message

Framing reads one message from front to back, so every cursor it meets stands at some
position of that message. Each frame field is an equation between the field, the position
and the octets there; the position behind the field is the only thing that later reads see.

`Tiled` says that items lie end to end between two positions. Reading a counted number of
items succeeds exactly when they tile a stretch of the message.
-/

namespace DnsTrace

/-- Two steps succeed together when the second succeeds on what the first yields. -/
theorem bind_eq_ok_iff {α β : Type} {first : Except Fault α} {next : α → Except Fault β}
    {result : β} :
    (first >>= next) = .ok result ↔ ∃ value, first = .ok value ∧ next value = .ok result := by
  cases first with
  | error fault => simp [bind, Except.bind]
  | ok value => simp [bind, Except.bind]

/-- Two steps fail together when the first fails, or the second on what the first yields. -/
theorem bind_eq_error_iff {α β : Type} {first : Except Fault α} {next : α → Except Fault β}
    {fault : Fault} :
    (first >>= next) = .error fault ↔
      first = .error fault ∨ ∃ value, first = .ok value ∧ next value = .error fault := by
  cases first with
  | error fault => simp [bind, Except.bind]
  | ok value => simp [bind, Except.bind]

/-- A changed result is the change of a result. -/
theorem map_eq_ok_iff {α β : Type} {step : Except Fault α} {change : α → β} {result : β} :
    step.map change = .ok result ↔ ∃ value, step = .ok value ∧ change value = result := by
  cases step with
  | error fault => simp [Except.map]
  | ok value => simp [Except.map]

/-- A change refuses nothing. -/
theorem map_eq_error_iff {α β : Type} {step : Except Fault α} {change : α → β} {fault : Fault} :
    step.map change = .error fault ↔ step = .error fault := by
  cases step <;> simp [Except.map]

namespace Octets

/-- The `n` octets from `offset` on, or as many of them as there are. -/
def slice (octets : Octets) (offset n : Nat) : Octets := (octets.drop offset).take n

/-- The octets from one offset up to another, or as many of them as there are. -/
def between (octets : Octets) (start stop : Nat) : Octets := (octets.take stop).drop start

/-- The number that the `n` octets from `offset` on spell. -/
def number (octets : Octets) (offset n : Nat) : Nat := value (octets.slice offset n)

/-- A number of `n` octets, most significant octet first. -/
def ofNumber : Nat → Nat → Octets
  | 0, _ => []
  | n + 1, number => ofNumber n (number / 256) ++ [UInt8.ofNat number]

/-- The last octet counts once and shifts what stands before it by one octet. -/
theorem value_concat (octets : Octets) (last : UInt8) :
    value (octets ++ [last]) = value octets * 256 + last.toNat := by
  simp only [value, List.foldl_append, List.foldl_cons, List.foldl_nil]

/-- A number never needs more octets than those that spell it. -/
theorem value_lt (octets : Octets) : value octets < 256 ^ octets.length := by
  induction octets using List.reverseRecOn with
  | nil => simp [value]
  | append_singleton front last ih =>
    have hlast := last.toNat_lt
    rw [value_concat, List.length_append, List.length_singleton, Nat.pow_succ]
    omega

/-- A number has as many octets as it is written with. -/
theorem length_ofNumber (n number : Nat) : (ofNumber n number).length = n := by
  induction n generalizing number with
  | zero => rfl
  | succ n ih => rw [ofNumber, List.length_append, ih, List.length_singleton]

/-- The octets of a number spell it, as far as they reach. -/
theorem value_ofNumber (n number : Nat) : value (ofNumber n number) = number % 256 ^ n := by
  induction n generalizing number with
  | zero => simp [ofNumber, value, Nat.mod_one]
  | succ n ih =>
    have hsplit := Nat.mod_mul (a := 256) (b := 256 ^ n) (x := number)
    rw [ofNumber, value_concat, ih, Nat.pow_succ, Nat.mul_comm (256 ^ n), hsplit]
    simp only [UInt8.toNat_ofNat']
    omega

/-- Octets are the written form of the number that they spell. -/
theorem ofNumber_value (octets : Octets) : ofNumber octets.length (value octets) = octets := by
  induction octets using List.reverseRecOn with
  | nil => rfl
  | append_singleton front last ih =>
    have hlast := last.toNat_lt
    have hquotient : (value front * 256 + last.toNat) / 256 = value front := by omega
    have hremainder : UInt8.ofNat (value front * 256 + last.toNat) = last := by
      apply UInt8.toNat_inj.mp
      rw [UInt8.toNat_ofNat']
      omega
    rw [List.length_append, List.length_singleton, ofNumber, value_concat, hquotient, hremainder,
      ih]

/-- A slice is as long as it is asked to be, or ends with the octets. -/
theorem length_slice (octets : Octets) (offset n : Nat) :
    (octets.slice offset n).length = min n (octets.length - offset) := by
  rw [slice, List.length_take, List.length_drop]

/-- What lies between two offsets ends with the octets. -/
theorem length_between (octets : Octets) (start stop : Nat) :
    (octets.between start stop).length = min stop octets.length - start := by
  rw [between, List.length_drop, List.length_take]

/-- A number of `n` octets is below the power that `n` octets can spell. -/
theorem number_lt (octets : Octets) (offset n : Nat) : octets.number offset n < 256 ^ n := by
  apply Nat.lt_of_lt_of_le (value_lt _)
  rw [length_slice]
  exact Nat.pow_le_pow_right (by decide) (Nat.min_le_left _ _)

/-- The last octet of a number counts once. -/
theorem number_succ {octets : Octets} {offset n : Nat} (h : offset + n < octets.length) :
    octets.number offset (n + 1) = octets.number offset n * 256 + octets.number (offset + n) 1 := by
  obtain ⟨last, hlast⟩ : ∃ last, (octets.drop (offset + n)).take 1 = [last] := by
    rw [← List.length_eq_one_iff, List.length_take, List.length_drop]
    omega
  simp only [number, slice]
  rw [List.take_add, List.drop_drop, hlast, value_concat]
  simp [value]

/-- A number of one octet fits in eight bits. -/
theorem toNat_ofNat_number_one (octets : Octets) (offset : Nat) :
    (UInt8.ofNat (octets.number offset 1)).toNat = octets.number offset 1 :=
  UInt8.toNat_ofNat_of_lt' (octets.number_lt offset 1)

/-- A number of two octets fits in sixteen bits. -/
theorem toNat_ofNat_number_two (octets : Octets) (offset : Nat) :
    (UInt16.ofNat (octets.number offset 2)).toNat = octets.number offset 2 :=
  UInt16.toNat_ofNat_of_lt' (octets.number_lt offset 2)

/-- A number of four octets fits in thirty-two bits. -/
theorem toNat_ofNat_number_four (octets : Octets) (offset : Nat) :
    (UInt32.ofNat (octets.number offset 4)).toNat = octets.number offset 4 :=
  UInt32.toNat_ofNat_of_lt' (octets.number_lt offset 4)

/-- Octets that stand at an offset are the slice there. -/
theorem slice_eq_of_prefix {octets front : Octets} {offset : Nat}
    (h : front <+: octets.drop offset) : octets.slice offset front.length = front :=
  (List.prefix_iff_eq_take.mp h).symm

/-- A number whose octets stand at an offset is the number there. -/
theorem number_eq_of_prefix {octets : Octets} {offset n number : Nat}
    (h : ofNumber n number <+: octets.drop offset) (hnumber : number < 256 ^ n) :
    octets.number offset n = number := by
  have hslice := slice_eq_of_prefix h
  rw [length_ofNumber] at hslice
  rw [Octets.number, hslice, value_ofNumber, Nat.mod_eq_of_lt hnumber]

/-- What stands at an offset begins with the octet there. -/
theorem getElem?_of_prefix_drop {octets front : Octets} {first : UInt8} {offset : Nat}
    (h : first :: front <+: octets.drop offset) : octets[offset]? = some first := by
  obtain ⟨behind, hbehind⟩ := h
  rw [← List.head?_drop, ← hbehind]
  rfl

/-- Octets stand at an offset when their front does and their back does behind it. -/
theorem append_prefix_drop_iff {octets front back : Octets} {offset : Nat} :
    front ++ back <+: octets.drop offset ↔
      front <+: octets.drop offset ∧ back <+: octets.drop (offset + front.length) := by
  rw [← List.drop_drop]
  refine ⟨fun h => ?_, fun h => ?_⟩
  · obtain ⟨rest, hrest⟩ := h
    rw [← hrest, List.append_assoc, List.drop_left]
    exact ⟨List.prefix_append _ _, List.prefix_append _ _⟩
  · obtain ⟨⟨rest, hrest⟩, hback⟩ := h
    rw [← hrest, List.drop_left] at hback
    rw [← hrest]
    exact (List.prefix_append_right_inj front).mpr hback

end Octets

namespace Cursor

/-- The cursor at a position of a message. -/
def within (raw : Octets) (position : Nat) : Cursor := ⟨position, raw.drop position⟩

/-- The first cursor stands at the front. -/
theorem start_eq_within (raw : Octets) : start raw = within raw 0 := rfl

/-- As many octets as are asked for are taken from the slice at the cursor, or none are. -/
theorem take?_within (raw : Octets) (position n : Nat) :
    (within raw position).take? n =
      if n ≤ raw.length - position then some (raw.slice position n, within raw (position + n))
      else none := by
  simp only [take?, Octets.split?, within, List.length_take, List.length_drop]
  by_cases hfits : n ≤ raw.length - position
  · rw [if_pos hfits, if_pos (Nat.min_eq_left hfits)]
    simp only [Option.map_some, List.drop_drop, Octets.slice]
  · rw [if_neg hfits, if_neg (by omega)]
    rfl

/-- A frame field is the slice at the cursor, or is reported there when it is cut short. -/
theorem field_within (raw : Octets) (position n : Nat) :
    (within raw position).field n =
      if n ≤ raw.length - position then
        .ok (raw.slice position n, within raw (position + n))
      else .error (.malformed position .endOfInput) := by
  rw [field, take?_within]
  by_cases hfits : n ≤ raw.length - position
  · rw [if_pos hfits, if_pos hfits]
  · rw [if_neg hfits, if_neg hfits]
    rfl

/-- A frame field of at least one octet that is interpreted as soon as it is read. -/
theorem field_bind_within {α : Type} (raw : Octets) (position n : Nat) (hn : 0 < n)
    (interpret : Octets → α) :
    ((within raw position).field n >>= fun taken => pure (interpret taken.1, taken.2)) =
      if position + n ≤ raw.length then
        .ok (interpret (raw.slice position n), within raw (position + n))
      else .error (.malformed position .endOfInput) := by
  rw [field_within]
  by_cases hfits : position + n ≤ raw.length
  · rw [if_pos hfits, if_pos (by omega)]
    rfl
  · rw [if_neg hfits, if_neg (by omega)]
    rfl

/-- A one octet field is the octet at the cursor. -/
theorem field8_within (raw : Octets) (position : Nat) :
    (within raw position).field8 =
      if position + 1 ≤ raw.length then
        .ok (.ofNat (raw.number position 1), within raw (position + 1))
      else .error (.malformed position .endOfInput) :=
  field_bind_within raw position 1 (by decide) fun octets => UInt8.ofNat (Octets.value octets)

/-- A two octet field is the number at the cursor. -/
theorem field16_within (raw : Octets) (position : Nat) :
    (within raw position).field16 =
      if position + 2 ≤ raw.length then
        .ok (.ofNat (raw.number position 2), within raw (position + 2))
      else .error (.malformed position .endOfInput) :=
  field_bind_within raw position 2 (by decide) fun octets => UInt16.ofNat (Octets.value octets)

/-- A four octet field is the number at the cursor. -/
theorem field32_within (raw : Octets) (position : Nat) :
    (within raw position).field32 =
      if position + 4 ≤ raw.length then
        .ok (.ofNat (raw.number position 4), within raw (position + 4))
      else .error (.malformed position .endOfInput) :=
  field_bind_within raw position 4 (by decide) fun octets => UInt32.ofNat (Octets.value octets)

end Cursor

/-- Items that lie end to end from the first position up to the second, each from a start up
to a stop that `Fits` allows it. -/
inductive Tiled {α : Type} (Fits : α → Nat → Nat → Prop) : Nat → List α → Nat → Prop
  | nil (position : Nat) : Tiled Fits position [] position
  | cons {item : α} {items : List α} {start next stop : Nat} (fits : Fits item start next)
      (others : Tiled Fits next items stop) : Tiled Fits start (item :: items) stop

namespace Tiled

variable {α β : Type} {Fits : α → Nat → Nat → Prop} {Fits' : β → Nat → Nat → Prop}

/-- Tiles that each end no earlier than they start do so together. -/
theorem start_le {start stop : Nat} {items : List α} (h : Tiled Fits start items stop)
    (hfits : ∀ item start next, Fits item start next → start ≤ next) : start ≤ stop := by
  induction h with
  | nil position => exact Nat.le_refl position
  | cons fits _ ih => exact Nat.le_trans (hfits _ _ _ fits) ih

/-- Tiles that each end before a bound do so together, if they start before it. -/
theorem stop_le {start stop bound : Nat} {items : List α} (h : Tiled Fits start items stop)
    (hfits : ∀ item start next, Fits item start next → next ≤ bound) (hstart : start ≤ bound) :
    stop ≤ bound := by
  induction h with
  | nil position => exact hstart
  | cons fits _ ih => exact ih (hfits _ _ _ fits)

/-- Every item of a tiling has its place in it. -/
theorem exists_of_mem {start stop : Nat} {items : List α} (h : Tiled Fits start items stop)
    {item : α} (hitem : item ∈ items) : ∃ start stop, Fits item start stop := by
  induction h with
  | nil position => cases hitem
  | cons fits _ ih =>
    obtain rfl | hitem := List.mem_cons.mp hitem
    · exact ⟨_, _, fits⟩
    · exact ih hitem

/-- Items whose octets stand end to end tile the place where they stand. -/
theorem of_flatMap {raw : Octets} {wire : α → Octets}
    (hfits : ∀ item start, wire item <+: raw.drop start →
      Fits item start (start + (wire item).length))
    (items : List α) (start : Nat) (h : items.flatMap wire <+: raw.drop start) :
    Tiled Fits start items (start + (items.flatMap wire).length) := by
  induction items generalizing start with
  | nil => exact .nil start
  | cons item items ih =>
    rw [List.flatMap_cons] at h ⊢
    obtain ⟨hitem, hitems⟩ := Octets.append_prefix_drop_iff.mp h
    rw [List.length_append, ← Nat.add_assoc]
    exact .cons (hfits item start hitem) (ih _ hitems)

/-- Tiles of one form can be exchanged, one by one, for related tiles of another form. -/
theorem exists_forall₂ {Related : β → α → Prop} {start stop : Nat} {items : List β}
    (h : Tiled Fits' start items stop)
    (hfits : ∀ item start next, Fits' item start next →
      ∃ other, Fits other start next ∧ Related item other) :
    ∃ others, Tiled Fits start others stop ∧ List.Forall₂ Related items others := by
  induction h with
  | nil position => exact ⟨[], .nil position, .nil⟩
  | cons fits _ ih =>
    obtain ⟨other, hfit, hrelated⟩ := hfits _ _ _ fits
    obtain ⟨others, htiled, hforall⟩ := ih
    exact ⟨other :: others, .cons hfit htiled, .cons hrelated hforall⟩

/-- A tiling by items of one form is a tiling by related items of another form, when the two
forms fit the same places. -/
theorem iff_exists_forall₂ {Related : α → β → Prop}
    (hfits : ∀ item start next,
      Fits' item start next ↔ ∃ origin, Fits origin start next ∧ Related origin item)
    (start stop : Nat) (items : List β) :
    Tiled Fits' start items stop ↔
      ∃ origins, Tiled Fits start origins stop ∧ List.Forall₂ Related origins items := by
  refine ⟨fun h => ?_, fun h => ?_⟩
  · have horigins : ∃ origins, Tiled Fits start origins stop ∧
        List.Forall₂ (flip Related) items origins :=
      h.exists_forall₂ fun item start next => (hfits item start next).mp
    obtain ⟨origins, htiled, hforall⟩ := horigins
    exact ⟨origins, htiled, hforall.flip⟩
  · obtain ⟨origins, htiled, hforall⟩ := h
    induction htiled generalizing items with
    | nil position =>
      cases hforall
      exact .nil position
    | cons fits _ ih =>
      cases hforall with
      | cons hrelated hrest =>
        exact .cons ((hfits _ _ _).mpr ⟨_, fits, hrelated⟩) (ih _ hrest)

end Tiled

namespace Cursor

/-- Within `raw`, `read` yields exactly the items that `Fits` allows at the cursor, and leaves
the cursor where they stop. -/
def Reads {α : Type} (raw : Octets) (read : Cursor → Except Fault (α × Cursor))
    (Fits : α → Nat → Nat → Prop) : Prop :=
  ∀ start item next,
    read (within raw start) = .ok (item, next) ↔
      ∃ stop, Fits item start stop ∧ next = within raw stop

namespace Reads

variable {α β : Type} {raw : Octets}

/-- What a reader yields may be described in any equivalent way. -/
theorem of_iff {read : Cursor → Except Fault (α × Cursor)} {Fits Fits' : α → Nat → Nat → Prop}
    (h : Reads raw read Fits)
    (hfits : ∀ item start stop, Fits item start stop ↔ Fits' item start stop) :
    Reads raw read Fits' := by
  intro start item next
  simp only [h start item next, hfits]

/-- Yielding an item without reading takes no octets. -/
theorem pure (item : α) :
    Reads raw (fun cursor => Pure.pure (item, cursor)) fun result start stop =>
      result = item ∧ stop = start := by
  intro start result next
  refine ⟨fun h => ?_, fun h => ?_⟩
  · cases h
    exact ⟨start, ⟨rfl, rfl⟩, rfl⟩
  · obtain ⟨stop, ⟨rfl, rfl⟩, rfl⟩ := h
    rfl

/-- What follows a reader starts where that reader stopped. -/
theorem bind {first : Cursor → Except Fault (α × Cursor)}
    {next : α × Cursor → Except Fault (β × Cursor)} {Fits : α → Nat → Nat → Prop}
    {Fits' : α → β → Nat → Nat → Prop} (hfirst : Reads raw first Fits)
    (hnext : ∀ item, Reads raw (fun cursor => next (item, cursor)) (Fits' item)) :
    Reads raw (fun cursor => first cursor >>= next) fun result start stop =>
      ∃ item middle, Fits item start middle ∧ Fits' item result middle stop := by
  intro start result cursor
  rw [bind_eq_ok_iff]
  refine ⟨fun h => ?_, fun h => ?_⟩
  · obtain ⟨⟨item, cursor'⟩, hitem, hresult⟩ := h
    obtain ⟨middle, hfits, rfl⟩ := (hfirst _ _ _).mp hitem
    obtain ⟨stop, hfits', rfl⟩ := (hnext _ _ _ _).mp hresult
    exact ⟨stop, ⟨item, middle, hfits, hfits'⟩, rfl⟩
  · obtain ⟨stop, ⟨item, middle, hfits, hfits'⟩, rfl⟩ := h
    have hitem := (hfirst start item _).mpr ⟨middle, hfits, rfl⟩
    have hresult := (hnext item middle result _).mpr ⟨stop, hfits', rfl⟩
    exact ⟨(item, within raw middle), hitem, hresult⟩

/-- A reader that is either refused or yields the one item that fits. -/
theorem of_eq_ite {read : Cursor → Except Fault (α × Cursor)} {item : Nat → α} {width : Nat}
    {fault : Nat → Fault}
    (h : ∀ start, read (within raw start) =
      if start + width ≤ raw.length then .ok (item start, within raw (start + width))
      else .error (fault start)) :
    Reads raw read fun result start stop =>
      result = item start ∧ stop = start + width ∧ stop ≤ raw.length := by
  intro start result next
  rw [h]
  refine ⟨fun hread => ?_, fun hread => ?_⟩
  · split at hread
    · rename_i hfits
      cases hread
      exact ⟨_, ⟨rfl, rfl, hfits⟩, rfl⟩
    · cases hread
  · obtain ⟨stop, ⟨rfl, rfl, hfits⟩, rfl⟩ := hread
    exact if_pos hfits

/-- A one octet field is the octet at its start. -/
theorem field8 : Reads raw Cursor.field8 fun result start stop =>
    result = .ofNat (raw.number start 1) ∧ stop = start + 1 ∧ stop ≤ raw.length :=
  of_eq_ite (field8_within raw)

/-- A two octet field is the number at its start. -/
theorem field16 : Reads raw Cursor.field16 fun result start stop =>
    result = .ofNat (raw.number start 2) ∧ stop = start + 2 ∧ stop ≤ raw.length :=
  of_eq_ite (field16_within raw)

/-- A four octet field is the number at its start. -/
theorem field32 : Reads raw Cursor.field32 fun result start stop =>
    result = .ofNat (raw.number start 4) ∧ stop = start + 4 ∧ stop ≤ raw.length :=
  of_eq_ite (field32_within raw)

/-- Reading a counted number of items yields exactly the tilings by as many items. -/
theorem many {read : Cursor → Except Fault (α × Cursor)} {Fits : α → Nat → Nat → Prop}
    (h : Reads raw read Fits) (count : Nat) :
    Reads raw (Cursor.many read count) fun items start stop =>
      items.length = count ∧ Tiled Fits start items stop := by
  induction count with
  | zero =>
    refine (pure []).of_iff fun items start stop => ⟨fun hfits => ?_, fun hfits => ?_⟩
    · obtain ⟨rfl, rfl⟩ := hfits
      exact ⟨rfl, .nil _⟩
    · obtain ⟨hlength, htiled⟩ := hfits
      obtain rfl := List.length_eq_zero_iff.mp hlength
      cases htiled
      exact ⟨rfl, rfl⟩
  | succ count ih =>
    refine (h.bind fun first => ih.bind fun others => pure (first :: others)).of_iff
      fun items start stop => ⟨fun hfits => ?_, fun hfits => ?_⟩
    · obtain ⟨first, middle, hfirst, others, _, ⟨hlength, hothers⟩, rfl, rfl⟩ := hfits
      exact ⟨congrArg Nat.succ hlength, .cons hfirst hothers⟩
    · obtain ⟨hlength, htiled⟩ := hfits
      cases htiled with
      | nil => cases hlength
      | cons hfirst hothers =>
        exact ⟨_, _, hfirst, _, _, ⟨Nat.succ.inj hlength, hothers⟩, rfl, rfl⟩

end Reads

end Cursor

end DnsTrace
