import DnsTrace.Proofs.Cursor
import DnsTrace.Proofs.InPlace.Names
import DnsTrace.RecordData

/-!
# Record data read in place

Record data is read through a view: the data as a whole and a position in it. What is left is the
difference of the two, and reading starts from the slice behind the position. No read moves the
position behind the end of the data, so neither ever fails.

The octets of an address are taken one by one, or copied into a field of sixteen. They are there,
because the read in front of it takes as many as it is asked for or stops.
-/

namespace DnsTrace

namespace InPlace

/-- Data, and how far it has been read. -/
structure View where
  data : Octets
  position : Nat

/-- A view whose position is inside its data stands for the cursor there. -/
structure Views (view : View) (cursor : Cursor) : Prop where
  position_le : view.position ≤ view.data.length
  eq_within : cursor = .within view.data view.position

/-- The front of some data stands for the cursor there. -/
theorem views_start (data : Octets) : Views ⟨data, 0⟩ (.start data) := ⟨Nat.zero_le _, rfl⟩

section Reads

/-- How many octets are left. -/
def remaining : Reader View Fault Nat := do
  let view ← get
  difference? view.data.length view.position

/-- The octets that are left. -/
def rest : Reader View Fault Octets := do
  let view ← get
  suffix? view.data view.position

/-- Move on by `n` octets. -/
def advance (n : Nat) : Reader View Fault Unit :=
  modify fun view => { view with position := view.position + n }

/-- Read `n` octets. -/
def bytes (n : Nat) : Reader View Fault Octets := do
  match Octets.split? n (← rest) with
  | none => throw (.truncated n (← remaining))
  | some (front, _) =>
      advance n
      return front

/-- Read one octet. -/
def read8 : Reader View Fault UInt8 := do
  let octets ← bytes 1
  return UInt8.ofNat (Octets.value octets)

/-- Read a two octet number. -/
def read16 : Reader View Fault UInt16 := do
  let octets ← bytes 2
  return UInt16.ofNat (Octets.value octets)

/-- Read a four octet number. -/
def read32 : Reader View Fault UInt32 := do
  let octets ← bytes 4
  return UInt32.ofNat (Octets.value octets)

/-- Check that `n` octets are left. -/
def ensure (n : Nat) : Reader View Fault Unit := do
  let left ← remaining
  if left < n then throw (.truncated n left)

variable {data : Octets} {position n : Nat}

/-- Inside its data, a view knows what is left of it. -/
theorem remaining_of_le (h : position ≤ data.length) :
    remaining ⟨data, position⟩ = some (.ok (data.length - position), ⟨data, position⟩) := by
  rw [remaining, bind_of_eq_ok (get_apply _), difference?_of_le h]
  rfl

/-- Inside its data, a view can be sliced. -/
theorem rest_of_le (h : position ≤ data.length) :
    rest ⟨data, position⟩ = some (.ok (data.drop position), ⟨data, position⟩) := by
  rw [rest, bind_of_eq_ok (get_apply _), suffix?_of_le h]
  rfl

/-- Octets that stand at the position of a view are read, and the position moves behind them. -/
theorem bytes_of_drop_eq {front back : Octets} (hinside : position ≤ data.length)
    (h : data.drop position = front ++ back) (hfront : front.length = n) :
    bytes n ⟨data, position⟩ = some (.ok front, ⟨data, position + n⟩) := by
  have hsplit : Octets.split? n (data.drop position) = some (front, back) :=
    Octets.split?_eq_some_iff.mpr ⟨h, hfront⟩
  rw [bytes, bind_of_eq_ok (rest_of_le hinside), hsplit]
  rfl

/-- Octets that the data lacks are reported with what is left, and the position stays. -/
theorem bytes_of_lt (hinside : position ≤ data.length) (h : data.length - position < n) :
    bytes n ⟨data, position⟩ =
      some (.error (.truncated n (data.length - position)), ⟨data, position⟩) := by
  have hsplit : Octets.split? n (data.drop position) = none := by
    rw [Octets.split?_eq_none_iff, List.length_drop]
    exact h
  rw [bytes, bind_of_eq_ok (rest_of_le hinside), hsplit]
  exact bind_of_eq_ok (remaining_of_le hinside)

/-- A read inside the data never moves behind its end. -/
theorem bytes_follows (n : Nat) : Follows Eq Views (bytes n) (·.bytes n) := by
  rintro ⟨data, position⟩ _ ⟨hinside, rfl⟩
  change position ≤ data.length at hinside
  show Matches _ _ (outcome (bytes n) ⟨data, position⟩) ((Cursor.within data position).bytes n)
  rw [Cursor.bytes_within_remaining]
  by_cases hfits : n ≤ data.length - position
  · have hfront : (data.slice position n).length = n := by
      rw [Octets.length_slice]
      omega
    have hdrop : data.drop position = data.slice position n ++ (data.drop position).drop n :=
      (List.take_append_drop n _).symm
    rw [if_pos hfits, outcome_of_eq_ok (bytes_of_drop_eq hinside hdrop hfront)]
    refine .ok ⟨rfl, ?_, rfl⟩
    show position + n ≤ data.length
    omega
  · rw [if_neg hfits, outcome_of_eq_error (bytes_of_lt hinside (by omega))]
    exact .error rfl

/-- A two octet number is read in place. -/
theorem read16_follows : Follows Eq Views read16 Cursor.read16 := by
  rw [funext Cursor.read16_eq]
  exact (bytes_follows 2).bind fun _ => .pure _

/-- A four octet number is read in place. -/
theorem read32_follows : Follows Eq Views read32 Cursor.read32 := by
  rw [funext Cursor.read32_eq]
  exact (bytes_follows 4).bind fun _ => .pure _

/-- Octets are passed over in place. -/
theorem skip_follows {α : Type} (n : Nat) (item : α) :
    Follows Eq Views (bytes n >>= fun _ => pure item) fun cursor => do
      let cursor ← cursor.skip n
      return (item, cursor) := by
  intro view cursor hviews
  have hskip : (cursor.skip n >>= fun cursor => pure (item, cursor)) =
      cursor.bytes n >>= fun taken => pure (item, taken.2) := by
    rw [Cursor.skip_eq]
    cases cursor.bytes n <;> rfl
  show Matches _ _ _ (cursor.skip n >>= fun cursor => pure (item, cursor))
  rw [hskip]
  exact (bytes_follows n).bind (fun _ => .pure item) view cursor hviews

/-- A check for octets is made in place. -/
theorem ensure_yields {α : Type} (n : Nat) {next : Reader View Fault α}
    {next' : Cursor → Except Fault α} (h : Yields Eq Views next next') :
    Yields Eq Views (ensure n >>= fun _ => next) fun cursor =>
      cursor.ensure n >>= fun _ => next' cursor := by
  rintro ⟨data, position⟩ _ ⟨hinside, rfl⟩
  change position ≤ data.length at hinside
  have hleft : (Cursor.within data position).remaining = data.length - position :=
    List.length_drop
  show Matches _ _ (outcome (ensure n >>= fun _ => next) ⟨data, position⟩)
    ((Cursor.within data position).ensure n >>= fun _ => next' _)
  rw [Cursor.ensure_eq, hleft, outcome_bind]
  by_cases hfits : n ≤ data.length - position
  · have hensure : ensure n ⟨data, position⟩ = some (.ok (), ⟨data, position⟩) := by
      rw [ensure, bind_of_eq_ok (remaining_of_le hinside), if_neg (by omega)]
      rfl
    rw [if_pos hfits, outcome_of_eq_ok hensure]
    exact h _ _ ⟨hinside, rfl⟩
  · have hensure : ensure n ⟨data, position⟩ =
        some (.error (.truncated n (data.length - position)), ⟨data, position⟩) := by
      rw [ensure, bind_of_eq_ok (remaining_of_le hinside), if_pos (by omega)]
      rfl
    rw [if_neg hfits, outcome_of_eq_error hensure]
    exact .error rfl

end Reads

section Decoding

/-- What a reader yields from the front of some data. -/
def readData {α : Type} (reader : Reader View Fault α) (data : Octets) : Attempt Fault α := do
  let (item, _) ← outcome reader ⟨data, 0⟩
  return item

/-- Reading data is settled by what the reader matches there. -/
theorem readData_of_matches {α : Type} {reader : Reader View Fault α} {data : Octets}
    {result : Except Fault α}
    (h : Matches Eq (fun left right => left.1 = right) (outcome reader ⟨data, 0⟩) result) :
    readData reader data = settled result := by
  rw [readData]
  generalize outcome reader ⟨data, 0⟩ = attempt at h
  cases h with
  | ok heq =>
    rw [← heq]
    rfl
  | error heq =>
    rw [← heq]
    rfl

variable (record : Record String) (message : Message)

/-- Read the name at a view of a record's data. -/
def embeddedName : Reader View Fault String := do
  let view ← get
  let (name, used) ← nameAt message (record.rdataOffset + view.position)
    (record.rdataOffset + record.rdlength)
  let _ ← bytes used
  return name

/-- Read four octets as an address. -/
def ipv4 : Reader View Fault RecordData := do
  let octets ← bytes 4
  let first ← octets[0]?
  let second ← octets[1]?
  let third ← octets[2]?
  let fourth ← octets[3]?
  return .a ⟨#v[first, second, third, fourth]⟩

/-- Read sixteen octets as an address. -/
def ipv6 : Reader View Fault RecordData := do
  let octets ← bytes 16
  let field ← copy? 16 16 octets
  return .aaaa ⟨field⟩

/-- Read a preference and a name. -/
def mailExchange : Reader View Fault RecordData := do
  let preference ← read16
  let exchange ← embeddedName record message
  return .mx preference exchange

/-- Read a single name. -/
def target : Reader View Fault RecordData := do
  let name ← embeddedName record message
  return .name name

/-- Read two names and five numbers. -/
def startOfAuthority : Reader View Fault RecordData := do
  let primary ← embeddedName record message
  let mailbox ← embeddedName record message
  ensure 20
  let serial ← read32
  let refresh ← read32
  let retry ← read32
  let expire ← read32
  let minimum ← read32
  return .soa { primary, mailbox, serial, refresh, retry, expire, minimum }

/-- A name inside record data is read in place and passed over. -/
theorem embeddedName_follows :
    Follows Eq Views (embeddedName record message) (record.embeddedName message) := by
  rintro view _ ⟨hinside, rfl⟩
  have hname := nameAt_eq message (record.rdataOffset + view.position)
    (record.rdataOffset + record.rdlength)
  rw [embeddedName, outcome_bind, outcome_of_eq_ok (get_apply view)]
  change Matches _ _ (outcome ((liftM (nameAt message _ _) : Reader View Fault _) >>= _) view) _
  rw [outcome_lift_bind]
  refine (matches_eq_iff.mpr hname).bind ?_
  rintro ⟨name, used⟩ _ rfl
  exact skip_follows used name view _ ⟨hinside, rfl⟩

/-- Four octets are there to be taken one by one. -/
theorem ipv4_eq : readData ipv4 record.rdata = settled record.readA := by
  apply readData_of_matches
  have hbytes := (bytes_follows 4 _ _ (views_start record.rdata)).and_of_ok fun _ =>
    Cursor.length_of_bytes
  rw [ipv4, outcome_bind]
  refine hbytes.bind ?_
  rintro ⟨octets, view⟩ ⟨_, cursor⟩ ⟨⟨rfl, -⟩, hlength⟩
  match octets, hlength with
  | [first, second, third, fourth], _ => exact .ok rfl

/-- Sixteen octets fill the field they are copied to. -/
theorem ipv6_eq : readData ipv6 record.rdata = settled record.readAAAA := by
  apply readData_of_matches
  have hbytes := (bytes_follows 16 _ _ (views_start record.rdata)).and_of_ok fun _ =>
    Cursor.length_of_bytes
  rw [ipv6, outcome_bind]
  refine hbytes.bind ?_
  rintro ⟨octets, view⟩ ⟨_, cursor⟩ ⟨⟨rfl, -⟩, hlength⟩
  simp only [copy?_of_length_eq hlength (Nat.le_refl 16)]
  exact .ok rfl

/-- A preference and a name are read in place. -/
theorem mailExchange_eq :
    readData (mailExchange record message) record.rdata = settled (record.readMX message) :=
  readData_of_matches <| read16_follows.bind_matches (views_start _) fun _ =>
    (embeddedName_follows record message).bind_yields fun _ => .pure _

/-- A single name is read in place. -/
theorem target_eq :
    readData (target record message) record.rdata = settled (record.readTarget message) :=
  readData_of_matches <| (embeddedName_follows record message).bind_matches (views_start _)
    fun _ => .pure _

/-- Two names and five numbers are read in place. -/
theorem startOfAuthority_eq :
    readData (startOfAuthority record message) record.rdata =
      settled (record.readSOA message) :=
  readData_of_matches <| (embeddedName_follows record message).bind_matches (views_start _)
    fun _ => (embeddedName_follows record message).bind_yields fun _ => ensure_yields 20 <|
      read32_follows.bind_yields fun _ =>
        read32_follows.bind_yields fun _ =>
          read32_follows.bind_yields fun _ =>
            read32_follows.bind_yields fun _ => read32_follows.bind_yields fun _ => .pure _

end Decoding

end InPlace

end DnsTrace
