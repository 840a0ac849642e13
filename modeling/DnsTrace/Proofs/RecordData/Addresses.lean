import DnsTrace.Proofs.Edns.Options
import DnsTrace.Proofs.RecordData.Parsed
import DnsTrace.Proofs.Text.Address

/-!
# The octets that an address shows

An address record shows as many of its octets as its family needs, and a client subnet shows four
or sixteen, with zeros in place of those that the option lacks. Whatever else the record or the
option holds is not shown. The text tells exactly the octets that are shown: two texts are the same
only if those are, and an IPv6 address that maps an IPv4 address is still told from it.
-/

namespace DnsTrace

namespace Record

section Widths

variable {type : RRType} {width : Nat}
  (hwidth : type = .a ∧ width = 4 ∨ type = .aaaa ∧ width = 16)

include hwidth

/-- An address record that has the octets of its family shows the address that they are. -/
theorem exists_address_of_data {record : Record String} (htype : record.rrType = type)
    (hroom : width ≤ record.rdlength) (message : Message) :
    ∃ address : Address, (record.data message).text = address.text ∧
      address.octets = record.rdata.take width := by
  have hspelled : (Octets.padded width (record.rdata.take width)).toList =
      record.rdata.slice 0 width := by
    rw [Octets.slice_zero]
    exact Octets.toList_padded (List.length_take_of_le hroom)
  obtain ⟨rfl, rfl⟩ | ⟨rfl, rfl⟩ := hwidth
  · refine ⟨.v4 ⟨Octets.padded 4 (record.rdata.take 4)⟩, ?_, ?_⟩
    · rw [data_of_said (.a htype hroom hspelled)]
      rfl
    · rw [Address.octets, hspelled, Octets.slice_zero]
  · refine ⟨.v6 ⟨Octets.padded 16 (record.rdata.take 16)⟩, ?_, ?_⟩
    · rw [data_of_said (.aaaa htype hroom hspelled)]
      rfl
    · rw [Address.octets, hspelled, Octets.slice_zero]

/-- Address records of one type show the same exactly when their first octets are the same. -/
theorem text_data_eq_iff {record record' : Record String} (htype : record.rrType = type)
    (htype' : record'.rrType = type) (hroom : width ≤ record.rdlength)
    (hroom' : width ≤ record'.rdlength) (message message' : Message) :
    (record.data message).text = (record'.data message').text ↔
      record.rdata.take width = record'.rdata.take width := by
  obtain ⟨address, htext, hoctets⟩ := exists_address_of_data hwidth htype hroom message
  obtain ⟨address', htext', hoctets'⟩ := exists_address_of_data hwidth htype' hroom' message'
  rw [htext, htext', ← hoctets, ← hoctets']
  exact Address.text_eq_iff

end Widths

end Record

namespace ClientSubnet

/-- The octets that the address of a client subnet shows: four of an IPv4 address, all sixteen
of any other. -/
def shown (subnet : ClientSubnet) : Octets :=
  if subnet.family = 1 then subnet.octets.toList.take 4 else subnet.octets.toList

/-- A client subnet of either family has an address, of the octets that are shown. -/
theorem exists_address {subnet : ClientSubnet} (h : subnet.family = 1 ∨ subnet.family = 2) :
    ∃ address, subnet.address? = some address ∧ address.octets = subnet.shown := by
  obtain hfamily | hfamily := h
  · refine ⟨.v4 ⟨subnet.octets.take 4⟩, ?_, ?_⟩
    · rw [address?, if_pos hfamily]
    · rw [shown, if_pos hfamily, Address.octets, Vector.toList_take]
  · have hother : subnet.family ≠ 1 := by
      rw [hfamily]
      decide
    refine ⟨.v6 ⟨subnet.octets⟩, ?_, ?_⟩
    · rw [address?, if_neg hother, if_pos hfamily]
    · rw [shown, if_neg hother, Address.octets]

/-- A client subnet is three words: the label with the address and the source prefix, and two that
hold the scope prefix. -/
theorem text_eq_words {subnet : ClientSubnet} {address : Address}
    (h : subnet.address? = some address) :
    subnet.text = " ".intercalate
      ["edns0_client_subnet=" ++ address.text ++ "/" ++ decimal subnet.source.toNat, "(scope",
        decimal subnet.scope.toNat ++ ")"] := by
  have hscope : " (scope " = " " ++ "(scope" ++ " " := rfl
  unfold text
  rw [h, hscope, String.intercalate_cons_cons, String.intercalate_cons_cons,
    String.intercalate_singleton]
  simp only [String.append_assoc, Option.map_some, Option.getD_some]

/-- The words are found again between the blanks. -/
theorem fields_text {subnet : ClientSubnet} {address : Address}
    (h : subnet.address? = some address) :
    fields ' ' subnet.text =
      [("edns0_client_subnet=" ++ address.text ++ "/" ++ decimal subnet.source.toNat).toList,
        "(scope".toList, (decimal subnet.scope.toNat ++ ")").toList] := by
  have hblank : (' ' : Char).isAlphanum = false := by decide
  have hfirst : ' ' ∉
      ("edns0_client_subnet=" ++ address.text ++ "/" ++ decimal subnet.source.toNat).toList := by
    have haddress := address.not_mem_text hblank (by decide) (by decide)
    have hsource := (alphanumeric_decimal subnet.source.toNat).not_mem hblank
    rw [String.toList_append, String.toList_append, String.toList_append, List.mem_append,
      List.mem_append, List.mem_append]
    exact not_or_intro (not_or_intro (not_or_intro (by decide) haddress) (by decide)) hsource
  have hlast : ' ' ∉ (decimal subnet.scope.toNat ++ ")").toList := by
    rw [String.toList_append, List.mem_append]
    exact not_or_intro ((alphanumeric_decimal subnet.scope.toNat).not_mem hblank) (by decide)
  rw [text_eq_words h, fields_intercalate rfl (by simp), flatMap_fields]
  · rfl
  · simp only [List.forall_mem_cons]
    exact ⟨hfirst, by decide, hlast, by simp⟩

/-- The address and the source prefix stand on either side of a stroke. -/
theorem fields_address_source (address : Address) (source : UInt8) :
    fields '/' ("edns0_client_subnet=" ++ address.text ++ "/" ++ decimal source.toNat) =
      [("edns0_client_subnet=" ++ address.text).toList, (decimal source.toNat).toList] := by
  have hstroke : ('/' : Char).isAlphanum = false := by decide
  have hfirst : '/' ∉ ("edns0_client_subnet=" ++ address.text).toList := by
    rw [String.toList_append, List.mem_append]
    exact not_or_intro (by decide) (address.not_mem_text hstroke (by decide) (by decide))
  rw [fields_append rfl, fields_of_not_mem hfirst, (alphanumeric_decimal _).fields_eq hstroke]
  rfl

/-- As many octets are shown as an address of the family has. -/
theorem length_shown (subnet : ClientSubnet) :
    subnet.shown.length = if subnet.family = 1 then 4 else 16 := by
  unfold shown
  split
  · rw [List.length_take, Vector.length_toList]
    rfl
  · rw [Vector.length_toList]

/-- The text of a client subnet of either family tells its family, its prefixes and the octets
that are shown. -/
theorem text_eq_iff {subnet subnet' : ClientSubnet}
    (h : subnet.family = 1 ∨ subnet.family = 2) (h' : subnet'.family = 1 ∨ subnet'.family = 2) :
    subnet.text = subnet'.text ↔
      subnet.family = subnet'.family ∧ subnet.source = subnet'.source ∧
        subnet.scope = subnet'.scope ∧ subnet.shown = subnet'.shown := by
  obtain ⟨address, haddress, hoctets⟩ := exists_address h
  obtain ⟨address', haddress', hoctets'⟩ := exists_address h'
  have hshown : address.text = address'.text ↔ subnet.shown = subnet'.shown := by
    rw [Address.text_eq_iff, hoctets, hoctets']
  constructor
  · intro htext
    have hwords := congrArg (fields ' ') htext
    rw [fields_text haddress, fields_text haddress'] at hwords
    simp only [List.cons.injEq, String.toList_inj, true_and, and_true] at hwords
    obtain ⟨hfirst, hlast⟩ := hwords
    have hparts := congrArg (fields '/') hfirst
    rw [fields_address_source, fields_address_source] at hparts
    simp only [List.cons.injEq, String.toList_append, List.append_right_inj, String.toList_inj,
      and_true] at hparts
    obtain ⟨htexts, hsource⟩ := hparts
    have hscope : decimal subnet.scope.toNat = decimal subnet'.scope.toNat := by
      rw [← String.toList_inj, String.toList_append, String.toList_append, List.append_left_inj,
        String.toList_inj] at hlast
      exact hlast
    have hfamily : subnet.family = subnet'.family := by
      -- The octets that are shown are four for one family and sixteen for the other.
      have hlength := congrArg List.length (hshown.mp htexts)
      rw [length_shown, length_shown] at hlength
      rcases h with h | h <;> rcases h' with h' | h' <;> simp_all
    exact ⟨hfamily, UInt8.toNat_inj.mp (decimal_injective hsource),
      UInt8.toNat_inj.mp (decimal_injective hscope), hshown.mp htexts⟩
  · intro hsame
    obtain ⟨-, hsource, hscope, hoctets⟩ := hsame
    rw [text_eq_words haddress, text_eq_words haddress', hshown.mpr hoctets, hsource, hscope]

/-- A client subnet says what its first four octets say, and shows the octets behind them with
zeros in place of those that are missing. -/
theorem exists_parse_eq_ok {payload : Octets} (h : 4 ≤ payload.length) :
    ∃ subnet, parse payload = .ok subnet ∧
      payload.take 4 = Octets.ofNumber 2 subnet.family.toNat ++ [subnet.source, subnet.scope] ∧
      subnet.shown = (payload.drop 4 ++ List.replicate 16 0).take
        (if subnet.family = 1 then 4 else 16) := by
  match payload with
  | high :: low :: source :: scope :: octets =>
    refine ⟨_, rfl, ?_, ?_⟩
    · dsimp only
      rw [Octets.toNat_ofNat_value_pair, Octets.ofNumber_value_pair]
      rfl
    · unfold shown
      dsimp only
      rw [Octets.toList_padded_eq_take]
      split
      · rw [List.take_take]
        rfl
      · rfl
  | [] | [_] | [_, _] | [_, _, _] => simp at h

end ClientSubnet

/-- The texts of addresses are the same exactly when the octets that are shown are: the first four
of A records, the first sixteen of AAAA records, and those of client subnets, which show their
family and both prefixes as well. And this although zeros are left out of the text of an IPv6
address: of its longest stretches of two or more zero groups, the first. -/
theorem Address.texts_eq_iff :
    (∀ (record record' : Record String) (message message' : Message),
      record.rrType = .a → record'.rrType = .a → 4 ≤ record.rdlength → 4 ≤ record'.rdlength →
        ((record.data message).text = (record'.data message').text ↔
          record.rdata.take 4 = record'.rdata.take 4)) ∧
      (∀ (record record' : Record String) (message message' : Message),
        record.rrType = .aaaa → record'.rrType = .aaaa →
          16 ≤ record.rdlength → 16 ≤ record'.rdlength →
            ((record.data message).text = (record'.data message').text ↔
              record.rdata.take 16 = record'.rdata.take 16)) ∧
      (∀ subnet subnet' : ClientSubnet, subnet.family = 1 ∨ subnet.family = 2 →
        subnet'.family = 1 ∨ subnet'.family = 2 →
          (subnet.text = subnet'.text ↔ subnet.family = subnet'.family ∧
            subnet.source = subnet'.source ∧ subnet.scope = subnet'.scope ∧
            subnet.shown = subnet'.shown)) ∧
      (∀ payload : Octets, 4 ≤ payload.length →
        ∃ subnet, ClientSubnet.parse payload = .ok subnet ∧
          payload.take 4 = Octets.ofNumber 2 subnet.family.toNat ++ [subnet.source, subnet.scope] ∧
          subnet.shown = (payload.drop 4 ++ List.replicate 16 0).take
            (if subnet.family = 1 then 4 else 16)) ∧
      ∀ address : IPv6, address.isMapped = false → ∃ front count back,
        address.groups = front ++ List.replicate count 0 ++ back ∧
          IPv6.Stretch.IsFirstLongest address.groups 8 ⟨front.length, count⟩ ∧
          address.text = if 2 ≤ count then IPv6.colonned front ++ "::" ++ IPv6.colonned back
            else IPv6.colonned address.groups := by
  refine ⟨fun record record' message message' htype htype' hroom hroom' => ?_,
    fun record record' message message' htype htype' hroom hroom' => ?_,
    fun subnet subnet' hfamily hfamily' => ClientSubnet.text_eq_iff hfamily hfamily',
    fun payload hlength => ClientSubnet.exists_parse_eq_ok hlength,
    fun address hmapped => IPv6.exists_text_eq hmapped⟩
  · exact Record.text_data_eq_iff (.inl ⟨rfl, rfl⟩) htype htype' hroom hroom' message message'
  · exact Record.text_data_eq_iff (.inr ⟨rfl, rfl⟩) htype htype' hroom hroom' message message'

/-- A record of a type whose data is these octets. -/
def Record.holding (type : RRType) (rdata : Octets) : Record String :=
  ⟨".", type, .internet, 0, rdata, 0⟩

/-- A message without sections. -/
def Message.bare : Message where
  header := ⟨1, .query, .noError, ⟨true, false, false, false, false, false, false, false⟩⟩
  body := ⟨[], [], [], []⟩
  raw := [0, 1, 0x80, 0, 0, 0, 0, 0, 0, 0, 0, 0]

/-- The client subnet of a payload that lacks the last octet of its IPv4 address. -/
def ClientSubnet.lacking : ClientSubnet :=
  ⟨1, 24, 0, #v[203, 0, 113, 0, 0, 0, 0, 0, 0, 0, 0, 0, 0, 0, 0, 0]⟩

/-- The client subnet of a payload that has an octet behind its IPv4 address. -/
def ClientSubnet.trailing : ClientSubnet :=
  ⟨1, 24, 0, #v[203, 0, 113, 0, 77, 0, 0, 0, 0, 0, 0, 0, 0, 0, 0, 0]⟩

/-- A client subnet whose IPv6 address maps that IPv4 address. -/
def ClientSubnet.mapping : ClientSubnet :=
  ⟨2, 24, 0, #v[0, 0, 0, 0, 0, 0, 0, 0, 0, 0, 255, 255, 203, 0, 113, 0]⟩

/-- An IPv6 address with two stretches of zeros that are equally long. -/
def IPv6.tied : IPv6 :=
  ⟨#v[32, 1, 13, 184, 0, 0, 0, 0, 0, 1, 0, 0, 0, 0, 0, 1]⟩

/-- An octet behind an IPv4 address is not shown, be it in a record or in a client subnet, and a
missing one is shown as zero; an IPv6 address that maps the address has another text. Two IPv6
addresses of the same numbers, with their zeros in front of different ones, differ as well. Of two
equally long stretches of zeros the first is left out. -/
theorem Address.texts_of_hidden_octets :
    ((Record.holding .a [192, 0, 2, 1, 99]).data .bare).text =
        ((Record.holding .a [192, 0, 2, 1]).data .bare).text ∧
      ((Record.holding .aaaa [32, 1, 0, 0, 0, 0, 0, 1, 0, 0, 0, 0, 0, 0, 0, 1]).data .bare).text ≠
        ((Record.holding .aaaa [32, 1, 0, 0, 0, 0, 0, 0, 0, 1, 0, 0, 0, 0, 0, 1]).data .bare).text ∧
      ClientSubnet.trailing.text = ClientSubnet.lacking.text ∧
      ClientSubnet.mapping.text ≠ ClientSubnet.lacking.text ∧
      ClientSubnet.parse [0, 1, 24, 0, 203, 0, 113] = .ok .lacking ∧
      ClientSubnet.lacking.shown = [203, 0, 113, 0] ∧
      ∃ front count back, IPv6.tied.groups = front ++ List.replicate count 0 ++ back ∧
        IPv6.Stretch.IsFirstLongest IPv6.tied.groups 8 ⟨front.length, count⟩ ∧
        "2001:db8::1:0:0:1" = if 2 ≤ count then IPv6.colonned front ++ "::" ++ IPv6.colonned back
          else IPv6.colonned IPv6.tied.groups := by
  obtain ⟨ha, haaaa, hsubnet, hparse, hzeros⟩ := texts_eq_iff
  obtain ⟨subnet, hread, -, hshown⟩ := hparse [0, 1, 24, 0, 203, 0, 113] (by decide)
  have hlacking : ClientSubnet.parse [0, 1, 24, 0, 203, 0, 113] = .ok .lacking := by decide
  obtain rfl : subnet = .lacking := Except.ok.inj (hread.symm.trans hlacking)
  refine ⟨(ha _ _ _ _ rfl rfl (by decide) (by decide)).mpr (by decide), fun htext => ?_,
    (hsubnet _ _ (.inl rfl) (.inl rfl)).mpr (by decide), fun htext => ?_, hlacking,
    hshown.trans (by decide), ?_⟩
  · have hoctets := (haaaa _ _ _ _ rfl rfl (by decide) (by decide)).mp htext
    exact absurd hoctets (by decide)
  · have hsame := (hsubnet _ _ (.inr rfl) (.inl rfl)).mp htext
    exact absurd hsame.1 (by decide)
  · have htied : IPv6.tied.text = "2001:db8::1:0:0:1" := by decide +kernel
    rw [← htied]
    exact hzeros IPv6.tied (by decide)

end DnsTrace
