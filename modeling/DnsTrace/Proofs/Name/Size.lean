import DnsTrace.Proofs.Message.Faults
import DnsTrace.Proofs.Name.Loops

/-!
# How large a name is

The limit of 255 octets bounds everything about a name. Each label takes one octet more than it
holds, so there are at most 127 of them. In text an octet becomes at most four characters, and
since a label that holds many octets saves length octets, the longest text belongs to the name of
four labels that fills the limit: it has 1003 characters.

A walk that passes the limit is refused at the label that passes it, wherever that label stands.
The length that is reported counts the labels in front of it, which fit, and the label itself,
which has at most 63 octets.
-/

namespace DnsTrace

namespace Label

/-- An octet is written as one to four characters. -/
theorem length_escapeOctet (octet : UInt8) :
    1 ≤ (escapeOctet octet).length ∧ (escapeOctet octet).length ≤ 4 := by
  unfold escapeOctet octetDigits
  split
  · simp
  · split <;> simp

/-- A label is written with one to four characters for each octet. -/
theorem length_escape (label : Label) :
    label.length ≤ label.escape.length ∧ label.escape.length ≤ 4 * label.length := by
  induction label with
  | nil => simp [escape]
  | cons octet label ih =>
    have hoctet := length_escapeOctet octet
    change label.length + 1 ≤ (escapeOctet octet ++ escape label).length ∧
      (escapeOctet octet ++ escape label).length ≤ 4 * (label.length + 1)
    rw [List.length_append]
    omega

end Label

namespace DomainName

/-- The escaped labels and the dots between them are shorter than four times the labels on the
wire, by one character for the missing dot and three for each length octet. -/
theorem length_joined_le (label : Label) (labels : List Label) :
    (joined (label :: labels)).length + 1 + 3 * (label :: labels).length ≤
      4 * labelsLength (label :: labels) := by
  induction labels generalizing label with
  | nil =>
    have hlabel := label.length_escape
    simp only [joined, labelsLength, List.length_cons, List.length_nil]
    omega
  | cons next labels ih =>
    have hlabel := label.length_escape
    have hlabels := ih next
    rw [joined_cons_cons, labelsLength, List.length_append, List.length_cons, List.length_cons]
    omega

/-- Labels with something in them have characters. -/
theorem length_joined_pos {label : Label} (h : 1 ≤ label.length) (labels : List Label) :
    1 ≤ (joined (label :: labels)).length := by
  have hlabel := label.length_escape
  cases labels with
  | nil =>
    rw [joined]
    omega
  | cons next labels =>
    rw [joined_cons_cons, List.length_append]
    omega

/-- Labels of at most 63 octets take at most 64 octets each. -/
theorem labelsLength_le {labels : List Label} (h : ∀ label ∈ labels, label.length ≤ 63) :
    labelsLength labels ≤ 64 * labels.length := by
  induction labels with
  | nil => simp [labelsLength]
  | cons label labels ih =>
    obtain ⟨hlabel, hlabels⟩ := List.forall_mem_cons.mp h
    have hrest := ih hlabels
    rw [labelsLength, List.length_cons]
    omega

/-- A name that fits has a text of one to 1003 characters. Up to three labels are too short to
reach that bound; from four labels on, every further label costs three characters. -/
theorem length_text {name : DomainName}
    (h : ∀ label ∈ name, 1 ≤ label.length ∧ label.length ≤ 63)
    (hfits : name.wireLength ≤ maxWireLength) : 1 ≤ name.text.length ∧ name.text.length ≤ 1003 := by
  cases name with
  | nil => decide
  | cons label labels =>
    have htext : (text (label :: labels)).length = (joined (label :: labels)).length := by
      rw [← String.length_toList, toList_text_of_ne_root (List.cons_ne_nil _ _)]
    have hshort := labelsLength_le fun other hother => (h other hother).2
    have hjoined := length_joined_le label labels
    have hpos := length_joined_pos (h label List.mem_cons_self).1 labels
    rw [wireLength, maxWireLength] at hfits
    rw [htext]
    omega

end DomainName

namespace Walk

variable {raw : Octets} {start here : Run} {n m : Nat}

/-- The labels that are refused end with the first that passes the longest name. -/
theorem exists_label_of_charge_eq_error {wireLength octets : Nat} {labels : List Label}
    (h : charge wireLength labels = .error (.nameTooLong octets))
    (hwire : wireLength ≤ DomainName.maxWireLength) :
    ∃ before label, before ++ [label] <+: labels ∧
      wireLength + DomainName.labelsLength before ≤ DomainName.maxWireLength ∧
      octets = wireLength + DomainName.labelsLength (before ++ [label]) ∧
      DomainName.maxWireLength < octets := by
  induction labels generalizing wireLength with
  | nil => cases h
  | cons first labels ih =>
    simp only [charge] at h
    split at h
    · rename_i hpasses
      cases h
      exact ⟨[], first, by simp, by simpa [DomainName.labelsLength] using hwire,
        by simp [DomainName.labelsLength], hpasses⟩
    · rename_i hfits
      obtain ⟨before, label, hlabels, hbefore, hoctets, hpasses⟩ := ih h (Nat.le_of_not_lt hfits)
      refine ⟨first :: before, label, List.cons_prefix_cons.mpr ⟨rfl, hlabels⟩, ?_, ?_, hpasses⟩
      · rw [DomainName.labelsLength]
        omega
      · rw [hoctets, List.cons_append, DomainName.labelsLength]
        omega

/-- The runs at which a walk stands have a wire form. -/
theorem wellFormed_of_station? (hstart : start.WellFormed)
    (h : station? raw start n = some here) : here.WellFormed := by
  cases n with
  | zero =>
    cases h
    exact hstart
  | succ n =>
    obtain ⟨target, -, hstands⟩ := station?_succ_eq_some_iff.mp h
    exact hstands.1

/-- What is collected at more stations begins with what is collected at fewer. -/
theorem collected_prefix_of_le (h : n ≤ m) : collected raw start n <+: collected raw start m := by
  induction h with
  | refl => exact List.prefix_refl _
  | step _ ih => exact ih.trans (List.prefix_append _ _)

/-- A walk meets these labels before all others: those of its first run, and behind them those of
the runs to which its pointers lead. -/
def Meets (raw : Octets) (start : Run) (labels : List Label) : Prop :=
  ∃ n, labels <+: collected raw start n

/-- Of two rows of labels that a walk meets, one begins with the other. -/
theorem Meets.prefix_or_prefix {labels others : List Label} (h : Meets raw start labels)
    (hothers : Meets raw start others) : labels <+: others ∨ others <+: labels := by
  obtain ⟨n, hlabels⟩ := h
  obtain ⟨m, hothers⟩ := hothers
  have hn := hlabels.trans (collected_prefix_of_le (Nat.le_max_left n m))
  have hm := hothers.trans (collected_prefix_of_le (Nat.le_max_right n m))
  exact List.prefix_or_prefix_of_prefix hn hm

/-- The walk passes the longest name with the label behind `before`, and has met `octets` octets
then. -/
structure PassesBehind (raw : Octets) (start : Run) (before : List Label) (label : Label)
    (octets : Nat) : Prop where
  meets : Meets raw start (before ++ [label])
  fits : 1 + DomainName.labelsLength before ≤ 255
  octets_eq : octets = 1 + DomainName.labelsLength (before ++ [label])
  passes : 255 < octets
  label_length : label.length ≤ 63

/-- A walk that meets more labels than fit takes `octets` octets with the first that does not, and
every row of labels that does not fit begins with the labels up to there. -/
def Outgrows (raw : Octets) (start : Run) (octets : Nat) : Prop :=
  ∃ before label, PassesBehind raw start before label octets ∧
    ∀ labels, Meets raw start labels → 255 < 1 + DomainName.labelsLength labels →
      before ++ [label] <+: labels

/-- Of the rows of labels that pass the longest name, the one whose last label passes it is the
shortest. -/
theorem PassesBehind.outgrows {before : List Label} {label : Label} {octets : Nat}
    (h : PassesBehind raw start before label octets) : Outgrows raw start octets := by
  refine ⟨before, label, h, fun labels hmeets hpasses => ?_⟩
  obtain hle | hle := h.meets.prefix_or_prefix hmeets
  · exact hle
  · obtain rfl | hbefore := List.prefix_concat_iff.mp hle
    · exact List.prefix_refl _
    · have hfits := h.fits
      obtain ⟨more, rfl⟩ := hbefore
      rw [DomainName.labelsLength_append] at hfits
      omega

/-- The label that passes the longest name takes at most 64 octets more than fit. -/
theorem Outgrows.bounds {octets : Nat} (h : Outgrows raw start octets) :
    256 ≤ octets ∧ octets ≤ 319 := by
  obtain ⟨before, label, h, -⟩ := h
  have hfits := h.fits
  have hlabel := h.label_length
  have hoctets : octets = 1 + (DomainName.labelsLength before + (label.length + 1)) := by
    rw [h.octets_eq, DomainName.labelsLength_append]
    rfl
  exact ⟨h.passes, by omega⟩

/-- A name is refused for its length at the label with which its walk passes the longest name. -/
theorem outgrows_of_resolve {octets : Nat} (hstart : start.WellFormed)
    (h : start.resolve raw = .error (.nameTooLong octets)) : Outgrows raw start octets := by
  obtain ⟨n, here, hn, hreaches, hends⟩ := exists_endsAt raw start
  rw [h] at hends
  cases hends with
  | tooLong passes =>
    obtain ⟨before, label, hlabels, hfits, hoctets, hpasses⟩ :=
      exists_label_of_charge_eq_error passes hreaches.fits
    have hlabel : label ∈ here.labels := hlabels.mem (by simp)
    have hlength := (wellFormed_of_station? hstart hreaches.stands).label_length label hlabel
    have hpassesBehind :
        PassesBehind raw start (collected raw start n ++ before) label octets := by
      refine ⟨⟨n + 1, ?_⟩, ?_, ?_, hpasses, hlength.2⟩
      · rw [collected_succ hreaches.stands, List.append_assoc]
        exact (List.prefix_append_right_inj _).mpr hlabels
      · rw [DomainName.labelsLength_append, ← Nat.add_assoc]
        exact hfits
      · rw [hoctets, List.append_assoc, DomainName.labelsLength_append (collected raw start n),
          Nat.add_assoc]
    exact hpassesBehind.outgrows
  | astray points fits fresh hops leads =>
    obtain hfault | ⟨_, _, -, -, hfault⟩ := eq_of_arrive_eq_error leads <;> cases hfault

end Walk

namespace Resolved

/-- A name that is resolved fits, and so does each of its labels. -/
theorem fits {labels : DomainName} {text : String} (h : Resolved labels text) :
    (∀ label ∈ labels, 1 ≤ label.length ∧ label.length ≤ 63) ∧
      labels.wireLength ≤ DomainName.maxWireLength ∧ text = labels.text := by
  obtain ⟨raw, run, hrun, hresolve, htext⟩ := h.exists_resolve
  obtain ⟨pointers, hwalk, -, hfits⟩ := Run.resolve_eq_ok_iff.mp hresolve
  exact ⟨hwalk.label_length hrun, hfits, htext⟩

end Resolved

namespace Message

/-- A message is refused for the length of a name because the walk from one of its names meets
more labels than fit. -/
theorem exists_outgrows_of_parse {raw : Octets} {octets : Nat}
    (h : parse raw = .error (.nameTooLong octets)) :
    ∃ layout, Envelope.LaidOut raw layout ∧ ∃ offset ∈ layout.names, ∃ start : Run,
      start.LiesIn (raw.drop offset) ∧ Walk.Outgrows raw start octets := by
  obtain ⟨_, _, -, hfault⟩ | ⟨layout, hlayout, offset, hoffset, hname⟩ :=
    brokenAt_or_readAt_of_parse h
  · cases hfault
  · obtain ⟨-, hfault⟩ | ⟨-, _, _, -, hfault⟩ | ⟨start, hstands, hresolve⟩ :=
      DomainName.readAt_eq_error_iff.mp hname
    · cases hfault
    · cases hfault
    · exact ⟨layout, hlayout, offset, hoffset, start, hstands.of_between,
        Walk.outgrows_of_resolve hstands.1 hresolve⟩

/-- Names are small. Everything that is resolved comes from labels that the walk collects: there
are at most 127 of them, of 1 to 63 octets each, they take at most 255 octets on the wire, and
their text has 1 to 1003 characters. A name is refused for a length from 256 to 319, which is that
of the labels that the walk meets up to the first that does not fit: those in front of it fit,
and whatever passes the longest name begins with them. -/
theorem resolved_within_bounds :
    (∀ (message : Message) (offset limit used : Nat) (text : String),
      message.nameAt offset limit = .ok (text, used) →
        ∃ labels, message.ResolvesAt offset limit labels text) ∧
    (∀ (raw : Octets) (message : Message) (index : Nat) (text : String),
      parse raw = .ok message → message.body.names[index]? = some text →
        ∃ labels, ResolvesItem raw index labels text) ∧
    (∀ (labels : DomainName) (text : String), Resolved labels text →
      labels.length ≤ 127 ∧ (∀ label ∈ labels, 1 ≤ label.length ∧ label.length ≤ 63) ∧
        1 + (labels.map fun label => label.length + 1).sum ≤ 255 ∧
        1 ≤ text.length ∧ text.length ≤ 1003) ∧
    (∀ (message : Message) (offset limit octets : Nat),
      message.nameAt offset limit = .error (.nameTooLong octets) →
        256 ≤ octets ∧ octets ≤ 319 ∧ ∃ start : Run,
          start.LiesIn (message.raw.between offset (min limit message.raw.length)) ∧
          Walk.Outgrows message.raw start octets) ∧
    ∀ (raw : Octets) (octets : Nat), parse raw = .error (.nameTooLong octets) →
      256 ≤ octets ∧ octets ≤ 319 ∧ ∃ layout, Envelope.LaidOut raw layout ∧
        ∃ offset ∈ layout.names, ∃ start : Run, start.LiesIn (raw.drop offset) ∧
          Walk.Outgrows raw start octets := by
  refine ⟨fun message offset limit used text h => exists_resolvesAt h,
    fun raw message index text h htext => exists_resolvesItem h htext,
    fun labels text h => ?_, fun message offset limit octets h => ?_, fun raw octets h => ?_⟩
  · obtain ⟨hlabels, hfits, rfl⟩ := h.fits
    have htext := DomainName.length_text hlabels hfits
    have hcount := DomainName.two_mul_length_le hlabels
    rw [DomainName.wireLength, DomainName.maxWireLength] at hfits
    rw [← DomainName.labelsLength_eq_sum]
    exact ⟨by omega, hlabels, hfits, htext⟩
  · obtain ⟨start, hstands, hresolve⟩ := exists_resolve_of_nameAt_eq_error h ⟨by simp, by simp⟩
    have hgrows := Walk.outgrows_of_resolve hstands.1 hresolve
    exact ⟨hgrows.bounds.1, hgrows.bounds.2, start, hstands, hgrows⟩
  · obtain ⟨layout, hlayout, offset, hoffset, start, hstands, hgrows⟩ := exists_outgrows_of_parse h
    exact ⟨hgrows.bounds.1, hgrows.bounds.2, layout, hlayout, offset, hoffset, start,
      hstands, hgrows⟩

/-- Labels of zero octets that fill a name. -/
def fullLabels : DomainName := [63, 63, 63, 61].map fun length => .replicate length 0

/-- A capture of two questions: for a full name, and at 271 for a label more in front of it. -/
def fullName : Message where
  header := ⟨0, .query, .noError, ⟨false, false, false, false, false, false, false, false⟩⟩
  body := ⟨[], [], [], []⟩
  raw := [0, 0, 0, 0, 0, 2, 0, 0, 0, 0, 0, 0] ++ Run.wire ⟨fullLabels, none⟩ ++ [0, 1, 0, 1] ++
    Run.wire ⟨[.replicate 63 0], some 12⟩ ++ [0, 1, 0, 1]

/-- The full name has the longest text. With the label in front of it the walk passes the longest
name behind the pointer, at the third of the labels there. -/
theorem nameAt_fullName :
    (∃ text labels, fullName.nameAt 12 341 = .ok (text, 255) ∧ text.length = 1003 ∧
      Resolved labels text ∧ labels.length ≤ 127 ∧
      1 + (labels.map fun label => label.length + 1).sum ≤ 255) ∧
    fullName.nameAt 271 341 = .error (.nameTooLong 257) ∧
    parse fullName.raw = .error (.nameTooLong 257) ∧
    ∃ start, Walk.Outgrows fullName.raw start 257 := by
  have hlies : (⟨fullLabels, none⟩ : Run).LiesIn
      (fullName.raw.between 12 (min 341 fullName.raw.length)) :=
    ⟨⟨by decide +kernel, by decide⟩, by decide +kernel⟩
  have hresolve : (⟨fullLabels, none⟩ : Run).resolve fullName.raw = .ok fullLabels :=
    Run.resolve_eq_ok_iff.mpr ⟨[], .ends fullLabels, by decide, by decide +kernel⟩
  have hread : fullName.nameAt 12 341 = .ok (fullLabels.text, 255) :=
    nameAt_eq_ok_iff.mpr ⟨_, _, hlies, hresolve, rfl, by decide +kernel⟩
  have hlong : fullName.nameAt 271 341 = .error (.nameTooLong 257) := by
    decide +kernel
  have hparse : parse fullName.raw = .error (.nameTooLong 257) := by decide +kernel
  obtain ⟨hnames, -, hfits, hlengths, -⟩ := resolved_within_bounds
  obtain ⟨labels, hlabels⟩ := hnames _ _ _ _ _ hread
  obtain ⟨hcount, -, hwire, -⟩ := hfits _ _ (.atOffset hlabels)
  obtain ⟨-, -, start, -, hgrows⟩ := hlengths _ _ _ _ hlong
  refine ⟨⟨_, labels, hread, ?_, .atOffset hlabels, hcount, hwire⟩, hlong, hparse, start, hgrows⟩
  rw [← String.length_toList, DomainName.toList_text_of_ne_root (by decide)]
  decide +kernel

end Message

end DnsTrace
