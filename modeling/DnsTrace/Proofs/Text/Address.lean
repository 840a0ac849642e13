import DnsTrace.Address
import DnsTrace.Proofs.Text.Fields
import Mathlib.Data.List.TakeWhile

/-!
# Addresses and their texts

The numbers of an address stand between separators, so they are found again one by one. Only the
zeros that are left out of an IPv6 address are not written. They leave an empty field in their
place, which no number does; and since an address has eight groups, their number is what is
missing beside the groups in front of that field and those behind it.
-/

namespace DnsTrace

namespace IPv4

/-- The fields between the dots are the octets. -/
theorem fields_dotted {octets : Octets} (h : octets ≠ []) :
    fields '.' (dotted octets) = octets.map fun octet => (decimal octet.toNat).toList := by
  have hdecimal : ∀ text ∈ octets.map fun octet => decimal octet.toNat, '.' ∉ text.toList := by
    rw [List.forall_mem_map]
    exact fun octet _ => (alphanumeric_decimal octet.toNat).not_mem (by decide)
  rw [dotted, fields_intercalate rfl (by simpa using h), flatMap_fields hdecimal, List.map_map]
  rfl

/-- The dotted text tells the octets, if there are any. -/
theorem eq_of_dotted_eq {octets octets' : Octets} (hne : octets ≠ []) (hne' : octets' ≠ [])
    (h : dotted octets = dotted octets') : octets = octets' := by
  have hfields := congrArg (fields '.') h
  rw [fields_dotted hne, fields_dotted hne'] at hfields
  refine List.map_injective_iff.mpr (fun octet octet' hoctet => ?_) hfields
  exact UInt8.toNat_inj.mp (decimal_injective (String.toList_inj.mp hoctet))

/-- Only digits and dots are in the dotted text. -/
theorem not_mem_dotted {char : Char} (hchar : char.isAlphanum = false) (hdot : char ≠ '.')
    (octets : Octets) : char ∉ (dotted octets).toList := by
  apply not_mem_intercalate
  · exact fun hmem => hdot (List.mem_singleton.mp hmem)
  · rw [List.forall_mem_map]
    exact fun octet _ => (alphanumeric_decimal octet.toNat).not_mem hchar

/-- No two addresses have the same text. -/
theorem text_injective : Function.Injective IPv4.text := by
  rintro ⟨octets⟩ ⟨octets'⟩ h
  have hne (octets : Vector UInt8 4) : octets.toList ≠ [] :=
    List.ne_nil_of_length_eq_add_one Vector.length_toList
  rw [Vector.toList_inj.mp (eq_of_dotted_eq (hne octets) (hne octets') h)]

end IPv4

namespace IPv6

section Groups

/-- Octets in pairs are the octets again, when their number is even. -/
theorem eq_of_pairs_eq {octets octets' : Octets} (hlength : octets.length = octets'.length)
    (heven : octets.length % 2 = 0) (h : pairs octets = pairs octets') : octets = octets' := by
  fun_induction pairs octets generalizing octets' with
  | case1 high low octets ih =>
    match octets' with
    | high' :: low' :: octets' =>
      rw [pairs, List.cons.injEq] at h
      simp only [List.length_cons] at hlength heven
      have hlow := low.toNat_lt
      have hlow' := low'.toNat_lt
      have hhigh : high = high' := UInt8.toNat_inj.mp (by omega)
      have hlow : low = low' := UInt8.toNat_inj.mp (by omega)
      rw [hhigh, hlow, ih (by omega) (by omega) h.2]
    | [_] => simp at hlength
    | [] => simp at hlength
  | case2 octets hshort =>
    match octets with
    | [] => exact (List.length_eq_zero_iff.mp hlength.symm).symm
    | [_] => simp at heven
    | high :: low :: octets => exact absurd rfl (hshort high low octets)

/-- There are half as many pairs as octets. -/
theorem length_pairs (octets : Octets) : (pairs octets).length = octets.length / 2 := by
  fun_induction pairs octets with
  | case1 high low octets ih =>
    simp only [List.length_cons, ih]
    omega
  | case2 octets hshort =>
    match octets with
    | [] => rfl
    | [_] => simp
    | high :: low :: octets => exact absurd rfl (hshort high low octets)

/-- The pairs in front are those of the octets in front. -/
theorem pairs_take (octets : Octets) (n : Nat) :
    pairs (octets.take (2 * n)) = (pairs octets).take n := by
  fun_induction pairs octets generalizing n with
  | case1 high low octets ih =>
    cases n with
    | zero => rfl
    | succ n =>
      rw [Nat.mul_succ, List.take_succ_cons, List.take_succ_cons, pairs, ih, List.take_succ_cons]
  | case2 octets hshort =>
    match octets with
    | [] => simp [pairs]
    | [_] => cases n <;> simp [pairs, Nat.mul_succ]
    | high :: low :: octets => exact absurd rfl (hshort high low octets)

/-- An address has eight groups. -/
theorem length_groups (address : IPv6) : address.groups.length = 8 := by
  rw [groups, length_pairs, Vector.length_toList]

/-- The stretch lies in the groups and has nothing but zeros. -/
def Stretch.IsZero (groups : List Nat) (stretch : Stretch) : Prop :=
  (groups.drop stretch.start).take stretch.length = List.replicate stretch.length 0

/-- The zeros from an index on are zeros. -/
theorem isZero_zerosFrom (groups : List Nat) (index : Nat) :
    (zerosFrom groups index).IsZero groups := by
  rw [Stretch.IsZero, zerosFrom, ← List.prefix_iff_eq_take.mp (List.takeWhile_prefix _),
    List.eq_replicate_iff]
  refine ⟨rfl, fun group hgroup => ?_⟩
  simpa using List.mem_takeWhile_imp hgroup

/-- The stretch that is left out is nothing but zeros. -/
theorem isZero_longestZeros (groups : List Nat) : (longestZeros groups).IsZero groups := by
  unfold longestZeros
  apply List.foldlRecOn (motive := Stretch.IsZero groups)
  · rfl
  · intro best hbest index _
    dsimp only
    split
    · exact isZero_zerosFrom groups index
    · exact hbest

/-- Of the stretches that begin at the first `n` groups, this is the first of the longest. -/
structure Stretch.IsFirstLongest (groups : List Nat) (n : Nat) (stretch : Stretch) : Prop where
  longest : ∀ index < n, (zerosFrom groups index).length ≤ stretch.length
  first : ∀ index < stretch.start, (zerosFrom groups index).length < stretch.length
  start_le : stretch.start ≤ n

/-- Looking at one more stretch keeps the first of the longest. -/
theorem Stretch.IsFirstLongest.succ {groups : List Nat} {n : Nat} {best : Stretch}
    (h : best.IsFirstLongest groups n) :
    (if best.length < (zerosFrom groups n).length then zerosFrom groups n else best).IsFirstLongest
      groups (n + 1) := by
  split
  · rename_i hlonger
    refine ⟨fun index hindex => ?_, fun index hindex => ?_, Nat.le_succ n⟩
    · obtain hbefore | rfl := Nat.lt_succ_iff_lt_or_eq.mp hindex
      · exact (h.longest index hbefore).trans hlonger.le
      · exact Nat.le_refl _
    · exact (h.longest index hindex).trans_lt hlonger
  · rename_i hshorter
    refine ⟨fun index hindex => ?_, h.first, h.start_le.trans (Nat.le_succ n)⟩
    obtain hbefore | rfl := Nat.lt_succ_iff_lt_or_eq.mp hindex
    · exact h.longest index hbefore
    · exact Nat.le_of_not_lt hshorter

/-- The stretch that is left out is the first of the longest. -/
theorem isFirstLongest_longestZeros (groups : List Nat) :
    (longestZeros groups).IsFirstLongest groups groups.length := by
  unfold longestZeros
  generalize groups.length = n
  induction n with
  | zero => exact ⟨by simp, by simp, Nat.le_refl 0⟩
  | succ n ih =>
    rw [List.range_succ, List.foldl_append]
    exact ih.succ

/-- Of two stretches that are equally long, the first is left out. -/
example : longestZeros [0x2001, 0xdb8, 0, 0, 1, 0, 0, 1] = ⟨2, 2⟩ := by decide

/-- The groups are those in front of the stretch, zeros, and those behind it. -/
theorem eq_front_zeros_back (groups : List Nat) :
    groups = groups.take (longestZeros groups).start ++
      List.replicate (longestZeros groups).length 0 ++
      groups.drop ((longestZeros groups).start + (longestZeros groups).length) := by
  rw [← isZero_longestZeros groups, List.append_assoc, ← List.drop_drop, List.take_append_drop,
    List.take_append_drop]

end Groups

section Colons

/-- The fields in front of the first empty one. -/
def leading (texts : List (List Char)) : List (List Char) :=
  texts.takeWhile (· ≠ [])

/-- Texts with something in them lead up to an empty one. -/
theorem leading_append_nil {texts : List (List Char)} (h : ∀ text ∈ texts, text ≠ [])
    (rest : List (List Char)) : leading (texts ++ [] :: rest) = texts := by
  rw [leading, List.takeWhile_append_of_pos (by simpa using h),
    List.takeWhile_cons_of_neg (by decide), List.append_nil]

/-- The characters of a group. -/
def digits (group : Nat) : List Char := (hexadecimal group).toList

/-- A group has something in it. -/
theorem digits_ne_nil (group : Nat) : digits group ≠ [] := by
  rw [digits, toList_hexadecimal]
  exact Nat.toDigits_ne_nil

/-- The fields between the colons are the groups, if there are any. -/
theorem fields_colonned {groups : List Nat} (h : groups ≠ []) :
    fields ':' (colonned groups) = groups.map digits := by
  have hhexadecimal : ∀ text ∈ groups.map hexadecimal, ':' ∉ text.toList := by
    rw [List.forall_mem_map]
    exact fun group _ => (alphanumeric_hexadecimal group).not_mem (by decide)
  rw [colonned, fields_intercalate rfl (by simpa using h), flatMap_fields hhexadecimal,
    List.map_map]
  rfl

/-- In front of an empty field, what leads is the groups. -/
theorem leading_fields_colonned (groups : List Nat) (rest : List (List Char)) :
    leading (fields ':' (colonned groups) ++ [] :: rest) = groups.map digits := by
  cases groups with
  | nil => rfl
  | cons group groups =>
    rw [fields_colonned (by simp)]
    apply leading_append_nil
    rw [List.forall_mem_map]
    exact fun group _ => digits_ne_nil group

/-- Behind an empty field, what ends is the groups. -/
theorem leading_reverse_fields_colonned (groups : List Nat) (rest : List (List Char)) :
    leading ((fields ':' (colonned groups)).reverse ++ [] :: rest) =
      (groups.map digits).reverse := by
  cases groups with
  | nil => rfl
  | cons group groups =>
    rw [fields_colonned (by simp)]
    apply leading_append_nil
    intro text htext
    obtain ⟨group, -, rfl⟩ := List.mem_map.mp (List.mem_reverse.mp htext)
    exact digits_ne_nil group

/-- The groups that are written, and those between them, are found in the fields of the text. -/
theorem exists_leading_compressed {groups : List Nat} (h : groups ≠ []) :
    ∃ front back count, groups = front ++ List.replicate count 0 ++ back ∧
      leading (fields ':' (compressed groups)) = front.map digits ∧
      leading ((fields ':' (compressed groups)).drop front.length).reverse =
        (back.map digits).reverse := by
  unfold compressed
  dsimp only
  split
  · refine ⟨_, _, _, eq_front_zeros_back groups, ?_, ?_⟩
    all_goals
      generalize groups.take (longestZeros groups).start = front
      generalize groups.drop _ = back
      have hfields : fields ':' (colonned front ++ "::" ++ colonned back) =
          fields ':' (colonned front) ++ [] :: fields ':' (colonned back) := by
        have hcolons : "::" = ":" ++ "" ++ ":" := rfl
        rw [hcolons, ← String.append_assoc, ← String.append_assoc, fields_append rfl,
          fields_append rfl, List.append_assoc]
        rfl
      rw [hfields]
    · exact leading_fields_colonned front _
    · cases front with
      | nil =>
        rw [List.length_nil, List.drop_zero, List.reverse_append, List.reverse_cons,
          List.append_assoc]
        exact leading_reverse_fields_colonned back _
      | cons group front =>
        have hlength : (fields ':' (colonned (group :: front))).length =
            (group :: front).length := by
          rw [fields_colonned (by simp), List.length_map]
        rw [← hlength, List.drop_left, List.reverse_cons]
        exact leading_reverse_fields_colonned back []
  · have hdigits : ∀ text ∈ groups.map digits, text ≠ [] := by
      rw [List.forall_mem_map]
      exact fun group _ => digits_ne_nil group
    refine ⟨groups, [], 0, by simp, ?_, ?_⟩
    · rw [fields_colonned h, leading, List.takeWhile_eq_self_iff.mpr (by simpa using hdigits)]
    · rw [fields_colonned h, ← List.length_map (f := digits), List.drop_length]
      rfl

/-- No two lists of groups that are equally long have the same text. -/
theorem eq_of_compressed_eq {groups groups' : List Nat} (hne : groups ≠ [])
    (hlength : groups.length = groups'.length) (h : compressed groups = compressed groups') :
    groups = groups' := by
  have hne' : groups' ≠ [] := by
    rintro rfl
    exact hne (List.length_eq_zero_iff.mp hlength)
  have hdigits : Function.Injective (List.map digits) := by
    rw [List.map_injective_iff]
    exact fun _ _ hgroup => hexadecimal_injective (String.toList_inj.mp hgroup)
  obtain ⟨front, back, count, hgroups, hfront, hback⟩ := exists_leading_compressed hne
  obtain ⟨front', back', count', hgroups', hfront', hback'⟩ := exists_leading_compressed hne'
  rw [h] at hfront hback
  obtain rfl : front = front' := hdigits (hfront.symm.trans hfront')
  obtain rfl : back = back' := hdigits (List.reverse_injective (hback.symm.trans hback'))
  rw [hgroups, hgroups'] at hlength
  simp only [List.length_append, List.length_replicate] at hlength
  obtain rfl : count = count' := by omega
  rw [hgroups, hgroups']

end Colons

section Mapped

/-- Only digits and colons are in the text of an address that is not mapped. -/
theorem not_mem_compressed {char : Char} (hchar : char.isAlphanum = false) (hcolon : char ≠ ':')
    (groups : List Nat) : char ∉ (compressed groups).toList := by
  have hmark : char ∉ ":".toList := fun hmem => hcolon (List.mem_singleton.mp hmem)
  have hmarks : char ∉ "::".toList := fun hmem => hcolon (by simpa using hmem)
  have hcolonned (groups : List Nat) : char ∉ (colonned groups).toList := by
    apply not_mem_intercalate hmark
    rw [List.forall_mem_map]
    exact fun group _ => (alphanumeric_hexadecimal group).not_mem hchar
  unfold compressed
  dsimp only
  split
  · rw [String.toList_append, String.toList_append, List.mem_append, List.mem_append]
    exact not_or_intro (not_or_intro (hcolonned _) hmarks) (hcolonned _)
  · exact hcolonned groups

/-- The text of a mapped address has dots. -/
theorem dot_mem_mapped {octets : Octets} (h : octets.length = 4) :
    '.' ∈ ("::ffff:" ++ IPv4.dotted octets).toList := by
  match octets with
  | first :: second :: octets =>
    rw [IPv4.dotted, List.map_cons, List.map_cons, String.intercalate_cons_cons]
    simp only [String.toList_append, List.mem_append]
    exact .inr (.inl (.inr (by decide)))
  | [_] => simp at h
  | [] => simp at h

end Mapped

/-- An address that is not mapped is written without the first of its longest stretches of zeros,
if these are two or more, and in full otherwise. -/
theorem exists_text_eq {address : IPv6} (h : address.isMapped = false) :
    ∃ front count back, address.groups = front ++ List.replicate count 0 ++ back ∧
      Stretch.IsFirstLongest address.groups 8 ⟨front.length, count⟩ ∧
      address.text = if 2 ≤ count then colonned front ++ "::" ++ colonned back
        else colonned address.groups := by
  have hfirst := isFirstLongest_longestZeros address.groups
  rw [length_groups] at hfirst
  have hstart : (address.groups.take (longestZeros address.groups).start).length =
      (longestZeros address.groups).start := by
    apply List.length_take_of_le
    rw [length_groups]
    exact hfirst.start_le
  refine ⟨_, _, _, eq_front_zeros_back address.groups, ?_, ?_⟩
  · rw [hstart]
    exact hfirst
  · unfold IPv6.text
    rw [h]
    rfl

/-- Only digits, colons and dots are in the text of an address. -/
theorem not_mem_text {char : Char} (hchar : char.isAlphanum = false) (hcolon : char ≠ ':')
    (hdot : char ≠ '.') (address : IPv6) : char ∉ address.text.toList := by
  unfold IPv6.text
  split
  · have hgroups : ∀ text ∈ ["", "", "ffff", ""], Alphanumeric text := by decide
    have hmapped : char ∉ "::ffff:".toList := by
      have hjoined : "::ffff:" = ":".intercalate ["", "", "ffff", ""] := rfl
      rw [hjoined]
      exact not_mem_intercalate (fun hmem => hcolon (List.mem_singleton.mp hmem))
        fun text htext => (hgroups text htext).not_mem hchar
    rw [String.toList_append, List.mem_append]
    exact not_or_intro hmapped (IPv4.not_mem_dotted hchar hdot _)
  · exact not_mem_compressed hchar hcolon _

/-- The text of an address has colons. -/
theorem colon_mem_text (address : IPv6) : ':' ∈ address.text.toList := by
  unfold IPv6.text
  split
  · rw [String.toList_append, List.mem_append]
    exact .inl (by decide)
  · unfold compressed
    dsimp only
    split
    · rw [String.toList_append, String.toList_append, List.mem_append, List.mem_append]
      exact .inl (.inr (by decide))
    · have hlength := address.length_groups
      generalize address.groups = groups at hlength
      match groups with
      | first :: second :: groups =>
        rw [colonned, List.map_cons, List.map_cons, String.intercalate_cons_cons]
        simp only [String.toList_append, List.mem_append]
        exact .inl (.inr (by decide))
      | [_] => simp at hlength
      | [] => simp at hlength

/-- No two addresses have the same text. -/
theorem text_injective : Function.Injective IPv6.text := by
  intro address address' h
  have hlength (address : IPv6) : address.octets.toList.length = 16 := Vector.length_toList
  have htail (address : IPv6) : (address.octets.toList.drop 12).length = 4 := by
    rw [List.length_drop, hlength]
  suffices hoctets : address.octets.toList = address'.octets.toList by
    exact congrArg IPv6.mk (Vector.toList_inj.mp hoctets)
  unfold IPv6.text at h
  split at h <;> split at h
  · rename_i hmapped hmapped'
    -- The first twelve octets are fixed, the last four are written.
    have hfront : address.octets.toList.take 12 = address'.octets.toList.take 12 := by
      apply eq_of_pairs_eq
      · rw [List.length_take, List.length_take, hlength, hlength]
      · rw [List.length_take, hlength]
        decide
      · rw [isMapped, decide_eq_true_eq, groups, ← pairs_take] at hmapped hmapped'
        exact hmapped.trans hmapped'.symm
    have hback : address.octets.toList.drop 12 = address'.octets.toList.drop 12 := by
      rw [← String.toList_inj, String.toList_append, String.toList_append, List.append_right_inj,
        String.toList_inj] at h
      exact IPv4.eq_of_dotted_eq (List.ne_nil_of_length_eq_add_one (htail address))
        (List.ne_nil_of_length_eq_add_one (htail address')) h
    rw [← List.take_append_drop 12 address.octets.toList, hfront, hback, List.take_append_drop]
  · have hdot := dot_mem_mapped (htail address)
    rw [h] at hdot
    exact absurd hdot (not_mem_compressed rfl (by decide) _)
  · have hdot := dot_mem_mapped (htail address')
    rw [← h] at hdot
    exact absurd hdot (not_mem_compressed rfl (by decide) _)
  · have hgroups : address.groups = address'.groups := by
      refine eq_of_compressed_eq ?_ ?_ h
      · exact List.ne_nil_of_length_eq_add_one address.length_groups
      · rw [length_groups, length_groups]
    refine eq_of_pairs_eq ?_ ?_ hgroups
    · rw [hlength, hlength]
    · rw [hlength]

end IPv6

namespace Address

/-- The octets of an address. -/
def octets : Address → Octets
  | v4 address => address.octets.toList
  | v6 address => address.octets.toList

/-- Only digits, colons and dots are in the text of an address of either family. -/
theorem not_mem_text {char : Char} (hchar : char.isAlphanum = false) (hcolon : char ≠ ':')
    (hdot : char ≠ '.') (address : Address) : char ∉ address.text.toList := by
  cases address with
  | v4 address => exact IPv4.not_mem_dotted hchar hdot _
  | v6 address => exact address.not_mem_text hchar hcolon hdot

/-- An IPv4 address has no colons in its text, so it is not taken for an IPv6 address. -/
theorem text_v4_ne_text_v6 (address : IPv4) (address' : IPv6) : address.text ≠ address'.text := by
  intro h
  have hcolon := address'.colon_mem_text
  rw [← h] at hcolon
  exact IPv4.not_mem_dotted rfl (by decide) _ hcolon

/-- Addresses of different families do not have the same number of octets. -/
theorem octets_v4_ne_octets_v6 (address : IPv4) (address' : IPv6) :
    (v4 address).octets ≠ (v6 address').octets := by
  intro h
  have hlength := congrArg List.length h
  rw [octets, octets, Vector.length_toList, Vector.length_toList] at hlength
  omega

/-- The text of an address tells its octets, of either family. -/
theorem text_eq_iff {address address' : Address} :
    address.text = address'.text ↔ address.octets = address'.octets := by
  match address, address' with
  | v4 ⟨octets⟩, v4 ⟨octets'⟩ =>
    change IPv4.text _ = IPv4.text _ ↔ octets.toList = octets'.toList
    rw [IPv4.text_injective.eq_iff, IPv4.mk.injEq, Vector.toList_inj]
  | v6 ⟨octets⟩, v6 ⟨octets'⟩ =>
    change IPv6.text _ = IPv6.text _ ↔ octets.toList = octets'.toList
    rw [IPv6.text_injective.eq_iff, IPv6.mk.injEq, Vector.toList_inj]
  | v4 address, v6 address' =>
    exact iff_of_false (text_v4_ne_text_v6 address address')
      (octets_v4_ne_octets_v6 address address')
  | v6 address, v4 address' =>
    exact iff_of_false (text_v4_ne_text_v6 address' address).symm
      (octets_v4_ne_octets_v6 address' address).symm

end Address

end DnsTrace
