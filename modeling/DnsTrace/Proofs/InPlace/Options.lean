import DnsTrace.Proofs.Edns.Options
import DnsTrace.Proofs.InPlace.Data

/-!
# Options read in place

The options of an EDNS record are read in a loop that looks at the octets that are left before
each turn. An option's payload is a slice as long as its two octets of length say, so narrowing
its length to sixteen bits keeps it; and of a client subnet no more address octets are copied than
its field has room for.
-/

namespace DnsTrace

namespace InPlace

/-- A read whose failure is handed on. Reading goes on from the view that the read left. -/
def attempted {α : Type} (reader : Reader View Fault α) : Reader View Fault (Option α) :=
  tryCatchThe Fault (some <$> reader) fun _ => return none

/-- The payload of a client subnet option. -/
def clientSubnet : Reader View Fault ClientSubnet := do
  let view ← get
  let family ← attempted read16
  let source ← attempted read8
  let scope ← attempted read8
  match family, source, scope with
  | some family, some source, some scope =>
      let present := min (← remaining) 16
      let address ← bytes present
      let octets ← copy? 16 present address
      return { family, source, scope, octets }
  | _, _, _ => throw (.shortClientSubnet view.data.length)

/-- The payload of an option. -/
def option (code : UInt16) (payload : Octets) : Attempt Fault EdnsOption :=
  if code = ClientSubnet.optionCode then do
    let length ← narrow? payload.length
    let subnet ← readData clientSubnet payload
    return .clientSubnet length subnet
  else return .other code payload

/-- The options that are left, in as many turns as are allowed and one less. -/
def options : Nat → Reader View Fault (List EdnsOption)
  | 0 => (none : Option (List EdnsOption))
  | turns + 1 => do
      if (← remaining) < 4 then return []
      else
        let code ← read16
        let length ← read16
        let left ← remaining
        match ← attempted (bytes length.toNat) with
        | none => throw (.optionOverrun code length left)
        | some payload =>
            let option ← option code payload
            let others ← options turns
            return option :: others

section Turns

variable {α : Type} {reader : Reader View Fault α} {view next : View}

/-- A read that succeeds hands on its item. -/
theorem attempted_of_eq_ok {item : α} (h : reader view = some (.ok item, next)) :
    attempted reader view = some (.ok (some item), next) := by
  have hmap : (some <$> reader) view = some (.ok (some item), next) := bind_of_eq_ok h
  rw [attempted, catch_apply, hmap]

/-- A read that fails hands on the view that it left. -/
theorem attempted_of_eq_error {fault : Fault} (h : reader view = some (.error fault, next)) :
    attempted reader view = some (.ok none, next) := by
  have hmap : (some <$> reader) view = some (.error fault, next) := bind_of_eq_error h
  rw [attempted, catch_apply, hmap]
  rfl

variable {data : Octets} {position : Nat} {back : Octets}

/-- The octet at the position of a view is read. -/
theorem read8_of_drop_eq {octet : UInt8} (hinside : position ≤ data.length)
    (h : data.drop position = octet :: back) :
    read8 ⟨data, position⟩ = some (.ok octet, ⟨data, position + 1⟩) := by
  have hoctet : UInt8.ofNat (Octets.value [octet]) = octet := by simp [Octets.value]
  have hbytes : bytes 1 ⟨data, position⟩ = some (.ok [octet], ⟨data, position + 1⟩) :=
    bytes_of_drop_eq hinside h rfl
  rw [read8, bind_of_eq_ok hbytes, hoctet]
  rfl

/-- The two octets at the position of a view are read as a number. -/
theorem read16_of_drop_eq {high low : UInt8} (hinside : position ≤ data.length)
    (h : data.drop position = high :: low :: back) :
    read16 ⟨data, position⟩ =
      some (.ok (.ofNat (Octets.value [high, low])), ⟨data, position + 2⟩) := by
  have hbytes : bytes 2 ⟨data, position⟩ = some (.ok [high, low], ⟨data, position + 2⟩) :=
    bytes_of_drop_eq hinside h rfl
  rw [read16, bind_of_eq_ok hbytes]
  rfl

end Turns

/-- A field is not changed by octets that it has no room for. -/
theorem padded_take (n : Nat) (octets : Octets) :
    Octets.padded n (octets.take (min octets.length n)) = Octets.padded n octets := by
  unfold Octets.padded
  congr 1
  funext i
  rw [List.getD_eq_getElem?_getD, List.getD_eq_getElem?_getD, List.getElem?_take]
  by_cases hi : (i : Nat) < octets.length
  · rw [if_pos (by omega)]
  · rw [if_neg (by omega), List.getElem?_eq_none (by omega)]

/-- A client subnet is read in place, whatever its payload lacks. -/
theorem clientSubnet_eq (payload : Octets) :
    readData clientSubnet payload = settled (ClientSubnet.parse payload) := by
  match payload with
  | [] | [_] | [_, _] | [_, _, _] => rfl
  | high :: low :: source :: scope :: octets =>
    generalize hpayload : high :: low :: source :: scope :: octets = payload
    have hlength : payload.length = octets.length + 4 := by rw [← hpayload]; rfl
    have hfamily : read16 ⟨payload, 0⟩ = some (.ok _, ⟨payload, 2⟩) :=
      read16_of_drop_eq (Nat.zero_le _) hpayload.symm
    have hsource : read8 ⟨payload, 2⟩ = some (.ok source, ⟨payload, 3⟩) :=
      read8_of_drop_eq (by omega) (by rw [← hpayload]; rfl)
    have hscope : read8 ⟨payload, 3⟩ = some (.ok scope, ⟨payload, 4⟩) :=
      read8_of_drop_eq (by omega) (by rw [← hpayload]; rfl)
    have hdrop : payload.drop 4 = octets := by rw [← hpayload]; rfl
    have hleft : remaining ⟨payload, 4⟩ = some (.ok octets.length, ⟨payload, 4⟩) := by
      rw [remaining_of_le (by omega), hlength, Nat.add_sub_cancel]
    generalize hpresent : min octets.length 16 = present
    have htake : (octets.take present).length = present := by
      rw [List.length_take]
      omega
    have haddress : bytes present ⟨payload, 4⟩ =
        some (.ok (octets.take present), ⟨payload, 4 + present⟩) :=
      bytes_of_drop_eq (by omega)
        (hdrop.trans (List.take_append_drop present octets).symm) htake
    apply readData_of_matches
    rw [outcome, clientSubnet, bind_of_eq_ok (get_apply _),
      bind_of_eq_ok (attempted_of_eq_ok hfamily),
      bind_of_eq_ok (attempted_of_eq_ok hsource),
      bind_of_eq_ok (attempted_of_eq_ok hscope)]
    dsimp only
    rw [bind_of_eq_ok hleft, hpresent, bind_of_eq_ok haddress, ← hpayload]
    have hcopy : copy? 16 present (octets.take present) = some (Octets.padded 16 octets) := by
      rw [copy?_of_length_eq htake (by omega), ← hpresent, padded_take]
    simp only [hcopy]
    exact .ok rfl

/-- An option no longer than two octets can say is read in place, with its length. -/
theorem option_eq (code : UInt16) {payload : Octets} (h : payload.length < 2 ^ 16) :
    option code payload = settled (EdnsOption.parse code payload) := by
  rw [option, EdnsOption.parse]
  by_cases hcode : code = ClientSubnet.optionCode
  · rw [if_pos hcode, if_pos hcode, narrow?_of_lt h, clientSubnet_eq]
    cases ClientSubnet.parse payload <;> rfl
  · rw [if_neg hcode, if_neg hcode]
    rfl

/-- Four octets or more begin with a header. -/
theorem exists_header {octets : Octets} (h : 4 ≤ octets.length) :
    ∃ codeHigh codeLow lengthHigh lengthLow behind,
      octets = codeHigh :: codeLow :: lengthHigh :: lengthLow :: behind := by
  match octets with
  | codeHigh :: codeLow :: lengthHigh :: lengthLow :: behind => exact ⟨_, _, _, _, _, rfl⟩
  | [] | [_] | [_, _] | [_, _, _] => simp at h

/-- A turn that finds a header reads its two numbers and goes on with the payload. -/
theorem options_of_header {turns : Nat} {data : Octets} {position : Nat} {code length : UInt16}
    {codeHigh codeLow lengthHigh lengthLow : UInt8} {behind : Octets}
    (hheader : data.drop position = codeHigh :: codeLow :: lengthHigh :: lengthLow :: behind)
    (hcode : .ofNat (Octets.value [codeHigh, codeLow]) = code)
    (hlength : .ofNat (Octets.value [lengthHigh, lengthLow]) = length) :
    options (turns + 1) ⟨data, position⟩ =
      (attempted (bytes length.toNat) >>= fun payload? =>
        match payload? with
        | none => throw (.optionOverrun code length behind.length)
        | some payload => do
            let option ← option code payload
            let others ← options turns
            return option :: others) ⟨data, position + 4⟩ := by
  have hcount := congrArg List.length hheader
  simp only [List.length_drop, List.length_cons] at hcount
  have hbehind : data.length - (position + 4) = behind.length := by omega
  have hsecond : data.drop (position + 2) = lengthHigh :: lengthLow :: behind := by
    rw [← List.drop_drop, hheader]
    rfl
  have hreadCode : read16 ⟨data, position⟩ = some (.ok code, ⟨data, position + 2⟩) := by
    rw [← hcode]
    exact read16_of_drop_eq (by omega) hheader
  have hreadLength : read16 ⟨data, position + 2⟩ =
      some (.ok length, ⟨data, position + 4⟩) := by
    rw [← hlength]
    exact read16_of_drop_eq (by omega) hsecond
  have hleft : remaining ⟨data, position + 4⟩ =
      some (.ok behind.length, ⟨data, position + 4⟩) := by
    rw [← hbehind]
    exact remaining_of_le (by omega)
  rw [options, bind_of_eq_ok (remaining_of_le (by omega)),
    if_neg (show ¬ data.length - position < 4 by omega), bind_of_eq_ok hreadCode,
    bind_of_eq_ok hreadLength, bind_of_eq_ok hleft]

/-- A turn reads the option at the view or finds fewer than four octets; there are more turns
than octets, so they do not run out. -/
theorem options_matches {turns : Nat} {data : Octets} {position : Nat}
    (hinside : position ≤ data.length) (hturns : data.length - position < turns) :
    Matches Eq (fun left right => left.1 = right) (outcome (options turns) ⟨data, position⟩)
      (EdnsOption.readAll (data.drop position)) := by
  induction turns generalizing position with
  | zero => omega
  | succ turns ih =>
    by_cases hshort : data.length - position < 4
    · rw [outcome, options, bind_of_eq_ok (remaining_of_le hinside), if_pos hshort,
        OptionField.readAll_tail (by rwa [List.length_drop])]
      exact .ok rfl
    · obtain ⟨codeHigh, codeLow, lengthHigh, lengthLow, behind, hheader⟩ :=
        exists_header (show 4 ≤ (data.drop position).length by rw [List.length_drop]; omega)
      generalize hcode : UInt16.ofNat (Octets.value [codeHigh, codeLow]) = code
      generalize hlength : UInt16.ofNat (Octets.value [lengthHigh, lengthLow]) = length
      have hbehind : data.drop (position + 4) = behind := by
        rw [← List.drop_drop, hheader]
        rfl
      rw [outcome_congr (options_of_header hheader hcode hlength), hheader,
        OptionField.readAll_header behind hcode hlength]
      cases hsplit : Octets.split? length.toNat behind with
      | none =>
        have hlack : data.length - (position + 4) < length.toNat := by
          rw [← List.length_drop, hbehind]
          exact Octets.split?_eq_none_iff.mp hsplit
        have hbytes := bytes_of_lt (by omega) hlack
        rw [outcome, bind_of_eq_ok (attempted_of_eq_error hbytes)]
        exact .error rfl
      | some taken =>
        obtain ⟨payload, back⟩ := taken
        obtain ⟨hsplit, hpayload⟩ := Octets.split?_eq_some_iff.mp hsplit
        have hword : payload.length < 2 ^ 16 := by
          rw [hpayload]
          exact length.toNat_lt
        have hbytes := bytes_of_drop_eq (by omega)
          (hbehind.trans hsplit) hpayload
        have hback : data.drop (position + 4 + length.toNat) = back := by
          rw [← List.drop_drop, hbehind, hsplit, ← hpayload, List.drop_left]
        rw [outcome_congr (bind_of_eq_ok (attempted_of_eq_ok hbytes))]
        dsimp only
        rw [option_eq code hword, outcome_lift_bind]
        refine (matches_eq_iff.mpr rfl).bind ?_
        rintro option _ rfl
        rw [← hback]
        have hcount := congrArg List.length (hbehind.trans hsplit)
        rw [List.length_drop, List.length_append, hpayload] at hcount
        have hothers := ih (show position + 4 + length.toNat ≤ data.length by omega) (by omega)
        rw [outcome_bind]
        exact hothers.map fun _ _ h => congrArg (option :: ·) h

/-- The content of an EDNS record. -/
def edns (record : Record String) : Attempt Fault Edns := do
  let ttl := record.ttl.toNat
  let options ← readData (options (record.rdata.length + 1)) record.rdata
  return {
    rdlength := record.rdlength
    payloadSize := record.rrClass.code
    extendedCode := UInt8.ofNat (ttl / 16777216)
    version := UInt8.ofNat (ttl / 65536 % 256)
    dnssecOk := ttl.testBit 15
    z := UInt16.ofNat (ttl % 32768)
    options }

/-- An EDNS record is read in place. -/
theorem edns_eq (record : Record String) : edns record = settled (Edns.ofRecord record) := by
  have hoptions : readData (options (record.rdata.length + 1)) record.rdata =
      settled (EdnsOption.readAll record.rdata) :=
    readData_of_matches (options_matches (Nat.zero_le _) (Nat.lt_succ_self _))
  rw [edns, hoptions]
  exact settled_bind _ _

end InPlace

end DnsTrace
