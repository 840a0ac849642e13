import DnsTrace.Relay
import Mathlib.Data.List.Basic

/-!
# What a relay delivers

A relay owes the lines of its datagrams in the order in which they arrive; failures to receive
owe nothing. A writer with room for so many octets gets exactly that many of what is owed, and the
relay ends with the first line that does not fit, whether its text or its end is refused. It fails
with what the writer failed with. Every line that fits is flushed once, right behind its end.

A step is one line. `Writer.putLine_bounded` says what it does to a writer with limited room, and
the runs follow from it by induction on the events: one in which all lines fit, and one that stops.
-/

namespace DnsTrace

/-- The octets in which a text is written. -/
def Octets.ofText (text : String) : Octets :=
  text.toUTF8.data.toList

/-- A text is written character by character. -/
theorem Octets.ofText_eq (text : String) :
    ofText text = text.toList.flatMap String.utf8EncodeChar := by
  rw [ofText, String.toUTF8_eq_toByteArray, ← String.utf8Encode_toList, List.utf8Encode,
    List.toList_data_toByteArray]

/-- Two texts in a row are written in a row. -/
@[simp] theorem Octets.ofText_append (first second : String) :
    ofText (first ++ second) = ofText first ++ ofText second := by
  simp only [ofText_eq, String.toList_append, List.flatMap_append]

/-- The end of a line is one octet. -/
theorem Octets.ofText_newline : ofText "\n" = [0x0a] := by
  rw [ofText_eq]
  rfl

namespace Writer

variable (refusal : String) (accepted octets : Octets) (flushes : Nat)

/-- A writer with limited room takes what it has room for, and fails if that is not all. -/
theorem accept_bounded (room : Nat) :
    accept octets ⟨some room, refusal, accepted, flushes⟩ =
      (if octets.length ≤ room then .ok () else .error refusal,
        ⟨some (room - octets.length), refusal, accepted ++ octets.take room, flushes⟩) := by
  change (if (octets.take room).length < octets.length then throw refusal else pure () : Action)
    ⟨some (room - (octets.take room).length), refusal, accepted ++ octets.take room, flushes⟩ = _
  have hroom : room - (octets.take room).length = room - octets.length := by
    rw [List.length_take]
    omega
  rw [hroom, List.length_take]
  by_cases hfits : octets.length ≤ room
  · rw [if_neg (by omega), if_pos hfits]
    rfl
  · rw [if_pos (by omega), if_neg hfits]
    rfl

/-- A line that fits is written and flushed. Of any other line as much is written as there is
room for, and then the writer fails. -/
theorem putLine_bounded (room : Nat) (line : String) :
    putLine line ⟨some room, refusal, accepted, flushes⟩ =
      if (Octets.ofText (line ++ "\n")).length ≤ room then
        (.ok (), ⟨some (room - (Octets.ofText (line ++ "\n")).length), refusal,
          accepted ++ Octets.ofText (line ++ "\n"), flushes + 1⟩)
      else
        (.error refusal,
          ⟨some 0, refusal, accepted ++ (Octets.ofText (line ++ "\n")).take room, flushes⟩) := by
  have hline : Octets.ofText (line ++ "\n") = Octets.ofText line ++ [0x0a] := by
    rw [Octets.ofText_append, Octets.ofText_newline]
  rw [putLine, ← Octets.ofText_eq, hline, List.length_append, List.length_singleton,
    Effect.bind_apply, accept_bounded]
  generalize Octets.ofText line = text
  by_cases htext : text.length ≤ room
  · rw [if_pos htext, List.take_of_length_le htext]
    dsimp only
    rw [Effect.bind_apply, accept_bounded, List.length_singleton]
    by_cases hfits : text.length + 1 ≤ room
    · have hroom : 1 ≤ room - text.length := by omega
      have hend : List.take (room - text.length) [(0x0a : UInt8)] = [0x0a] :=
        List.take_of_length_le hroom
      rw [if_pos hroom, hend, if_pos hfits, Nat.sub_sub, List.append_assoc]
      rfl
    · obtain rfl : room = text.length := by omega
      rw [if_neg hfits, List.take_left, Nat.sub_self, List.take_zero, List.append_nil]
      rfl
  · have hroom : room - text.length = 0 := by omega
    rw [if_neg htext, if_neg (by omega), hroom, List.take_append_of_le_length (by omega)]

/-- A writer without a limit takes every line. -/
theorem putLine_unbounded (line : String) :
    putLine line ⟨none, refusal, accepted, flushes⟩ =
      (.ok (), ⟨none, refusal, accepted ++ Octets.ofText (line ++ "\n"), flushes + 1⟩) := by
  rw [putLine, ← Octets.ofText_eq, Octets.ofText_append, Octets.ofText_newline,
    ← List.append_assoc]
  rfl

end Writer

namespace Relay

/-- The datagrams among some events. -/
def payloads (arrivals : List Arrival) : List Octets :=
  arrivals.filterMap fun
    | .datagram payload => some payload
    | .failure _ => none

/-- The lines that are owed for some events. -/
def lines (format : Format) (arrivals : List Arrival) : List Octets :=
  (payloads arrivals).map fun payload => Octets.ofText (format.renderLine payload)

/-- How many of some lines end within the limit, when they are written in a row. -/
def endsWithin (limit : Nat) (lines : List Octets) : Nat :=
  (List.range lines.length).countP fun index =>
    (lines.take (index + 1)).flatten.length ≤ limit

variable (format : Format)

/-- Nothing is owed for no events. -/
@[simp] theorem lines_nil : lines format [] = [] := rfl

/-- Nothing is owed for a failure to receive. -/
@[simp] theorem lines_failure (reason : String) (arrivals : List Arrival) :
    lines format (.failure reason :: arrivals) = lines format arrivals := rfl

/-- A line is owed for a datagram. -/
@[simp] theorem lines_datagram (payload : Octets) (arrivals : List Arrival) :
    lines format (.datagram payload :: arrivals) =
      Octets.ofText (format.renderLine payload) :: lines format arrivals := rfl

/-- The lines of more events come behind those of the first. -/
theorem lines_append (front rest : List Arrival) :
    lines format (front ++ rest) = lines format front ++ lines format rest := by
  rw [lines, payloads, List.filterMap_append, List.map_append]
  rfl

section Counting

variable {limit : Nat}

/-- A line that ends within the limit counts, and leaves less room for the others. Behind one
that does not, none does. -/
theorem endsWithin_cons (line : Octets) (lines : List Octets) :
    endsWithin limit (line :: lines) =
      if line.length ≤ limit then endsWithin (limit - line.length) lines + 1 else 0 := by
  have hfits (index : Nat) : ((line :: lines).take (index + 1)).flatten.length =
      line.length + (lines.take index).flatten.length := by
    rw [List.take_succ_cons, List.flatten_cons, List.length_append]
  rw [endsWithin, endsWithin, List.length_cons, List.range_succ_eq_map, List.countP_cons,
    List.countP_map]
  simp only [Function.comp_def, hfits]
  by_cases hline : line.length ≤ limit
  · have hroom (index : Nat) : line.length + (lines.take (index + 1)).flatten.length ≤ limit ↔
        (lines.take (index + 1)).flatten.length ≤ limit - line.length := by omega
    have hfirst : line.length + (lines.take 0).flatten.length ≤ limit := hline
    simp only [hroom, if_pos hline, decide_eq_true hfirst, if_true]
  · have hfirst : ¬ line.length + (lines.take 0).flatten.length ≤ limit := hline
    rw [if_neg hline, decide_eq_false hfirst, if_neg Bool.false_ne_true, Nat.add_zero,
      List.countP_eq_zero]
    intro index _ hends
    have hfitting := of_decide_eq_true hends
    omega

/-- Lines that all end within the limit all count, and leave less room for others. -/
theorem endsWithin_append {front : List Octets} (h : front.flatten.length ≤ limit)
    (lines : List Octets) :
    endsWithin limit (front ++ lines) =
      front.length + endsWithin (limit - front.flatten.length) lines := by
  induction front generalizing limit with
  | nil => simp
  | cons line front ih =>
    rw [List.flatten_cons, List.length_append] at h ⊢
    rw [List.cons_append, endsWithin_cons, if_pos (by omega), ih (by omega), List.length_cons,
      Nat.sub_sub]
    omega

end Counting

/-- Without a limit everything that is owed is delivered. -/
theorem run_unbounded (refusal : String) (accepted : Octets) (flushes : Nat)
    (arrivals : List Arrival) :
    run format ⟨none, refusal, accepted, flushes⟩ arrivals =
      ⟨⟨none, refusal, accepted ++ (lines format arrivals).flatten,
        flushes + (lines format arrivals).length⟩, none, []⟩ := by
  induction arrivals generalizing accepted flushes with
  | nil => simp [run, lines, payloads]
  | cons arrival arrivals ih =>
    cases arrival with
    | failure reason => rw [run, ih, lines_failure]
    | datagram payload =>
      rw [run, Writer.putLine_unbounded]
      simp only
      rw [ih, lines_datagram, List.flatten_cons, List.length_cons, List.append_assoc,
        ← Format.renderLine]
      congr 2
      omega

/-- What is owed is delivered when there is room for it. -/
theorem run_of_fits {room : Nat} {arrivals : List Arrival}
    (h : (lines format arrivals).flatten.length ≤ room) (refusal : String) (accepted : Octets)
    (flushes : Nat) :
    run format ⟨some room, refusal, accepted, flushes⟩ arrivals =
      ⟨⟨some (room - (lines format arrivals).flatten.length), refusal,
        accepted ++ (lines format arrivals).flatten,
        flushes + (lines format arrivals).length⟩, none, []⟩ := by
  induction arrivals generalizing room accepted flushes with
  | nil => simp [run, lines, payloads]
  | cons arrival arrivals ih =>
    cases arrival with
    | failure reason =>
      rw [lines_failure] at h ⊢
      rw [run, ih h]
    | datagram payload =>
      rw [lines_datagram, List.flatten_cons, List.length_append] at h
      rw [run, Writer.putLine_bounded, ← Format.renderLine, if_pos (by omega)]
      simp only
      rw [ih (by omega), lines_datagram, List.flatten_cons, List.length_cons, List.length_append,
        List.append_assoc, Nat.sub_sub]
      congr 2
      omega

/-- What is owed is delivered as far as there is room, when there is not room for all of it. The
relay ends with the failure of the writer at the datagram whose line does not fit, and the events
behind it are left unread. -/
theorem run_of_lt {room : Nat} {arrivals : List Arrival}
    (h : room < (lines format arrivals).flatten.length) (refusal : String) (accepted : Octets)
    (flushes : Nat) :
    ∃ front payload rest, arrivals = front ++ .datagram payload :: rest ∧
      (lines format front).flatten.length ≤ room ∧
      room < (lines format (front ++ [.datagram payload])).flatten.length ∧
      run format ⟨some room, refusal, accepted, flushes⟩ arrivals =
        ⟨⟨some 0, refusal, accepted ++ (lines format arrivals).flatten.take room,
          flushes + (lines format front).length⟩, some refusal, rest⟩ := by
  induction arrivals generalizing room accepted flushes with
  | nil => simp [lines, payloads] at h
  | cons arrival arrivals ih =>
    cases arrival with
    | failure reason =>
      rw [lines_failure] at h
      obtain ⟨front, payload, rest, rfl, hfront, hstop, hrun⟩ := ih h accepted flushes
      exact ⟨.failure reason :: front, payload, rest, rfl, hfront, hstop, hrun⟩
    | datagram first =>
      rw [lines_datagram, List.flatten_cons, List.length_append] at h
      by_cases hfits : (Octets.ofText (format.renderLine first)).length ≤ room
      · have hrest : room - (Octets.ofText (format.renderLine first)).length <
            (lines format arrivals).flatten.length := by omega
        obtain ⟨front, payload, rest, harrivals, hfront, hstop, hrun⟩ := ih hrest
          (accepted ++ Octets.ofText (format.renderLine first)) (flushes + 1)
        refine ⟨.datagram first :: front, payload, rest, by rw [harrivals]; rfl, ?_, ?_, ?_⟩
        · rw [lines_datagram, List.flatten_cons, List.length_append]
          omega
        · rw [List.cons_append, lines_datagram, List.flatten_cons, List.length_append]
          omega
        · rw [run, Writer.putLine_bounded, ← Format.renderLine, if_pos hfits]
          simp only
          rw [hrun, lines_datagram, lines_datagram, List.flatten_cons, List.length_cons,
            List.take_append, List.take_of_length_le hfits, List.append_assoc]
          congr 2
          omega
      · refine ⟨[], first, arrivals, rfl, Nat.zero_le _, ?_, ?_⟩
        · simpa [lines, payloads] using Nat.lt_of_not_le hfits
        · rw [run, Writer.putLine_bounded, ← Format.renderLine, if_neg hfits]
          simp only
          rw [lines_datagram, List.flatten_cons, List.take_append_of_le_length (by omega)]
          rfl

/-- Delivery to a writer that may fail. Of the lines that are owed, in the order in which their
datagrams arrive, a writer with a limit gets exactly the octets up to the limit, and is flushed
for every line that ends within it. The relay succeeds just when all that is owed is within the
limit. Otherwise it ends with the failure of the writer at the datagram whose line passes the
limit, and what arrives behind that datagram is not read. A writer without a limit gets all that
is owed and is flushed once for every datagram. -/
theorem run_eq_take (format : Format) (refusal : String) (arrivals : List Arrival) :
    (∀ limit,
      (run format (.opened (some limit) refusal) arrivals).writer.accepted =
        (lines format arrivals).flatten.take limit ∧
      (run format (.opened (some limit) refusal) arrivals).writer.flushes =
        endsWithin limit (lines format arrivals) ∧
      ((run format (.opened (some limit) refusal) arrivals).failure = none ↔
        (lines format arrivals).flatten.length ≤ limit) ∧
      ((lines format arrivals).flatten.length ≤ limit →
        (run format (.opened (some limit) refusal) arrivals).unread = []) ∧
      (limit < (lines format arrivals).flatten.length →
        (run format (.opened (some limit) refusal) arrivals).failure = some refusal ∧
        ∃ front payload,
          arrivals = front ++ .datagram payload ::
            (run format (.opened (some limit) refusal) arrivals).unread ∧
          (lines format front).flatten.length ≤ limit ∧
          limit < (lines format (front ++ [.datagram payload])).flatten.length)) ∧
    run format (.opened none refusal) arrivals =
      ⟨⟨none, refusal, (lines format arrivals).flatten, (payloads arrivals).length⟩, none, []⟩ := by
  constructor
  · intro limit
    by_cases hfits : (lines format arrivals).flatten.length ≤ limit
    · have hrun := run_of_fits format hfits refusal [] 0
      have hcount := endsWithin_append hfits []
      rw [List.append_nil] at hcount
      rw [Writer.opened, hrun, List.take_of_length_le hfits, hcount]
      exact ⟨List.nil_append _, Nat.add_comm _ _, iff_of_true rfl hfits, fun _ => rfl,
        fun hlt => absurd hfits (Nat.not_le_of_lt hlt)⟩
    · have hlt : limit < (lines format arrivals).flatten.length := Nat.lt_of_not_le hfits
      obtain ⟨front, payload, rest, harrivals, hfront, hstop, hrun⟩ :=
        run_of_lt format hlt refusal [] 0
      have hcount : endsWithin limit (lines format arrivals) = (lines format front).length := by
        rw [lines_append, lines_datagram, lines_nil, List.flatten_append, List.flatten_singleton,
          List.length_append] at hstop
        have hline : ¬ (Octets.ofText (format.renderLine payload)).length ≤
            limit - (lines format front).flatten.length := by omega
        rw [harrivals, lines_append, lines_datagram, endsWithin_append hfront, endsWithin_cons,
          if_neg hline, Nat.add_zero]
      rw [Writer.opened, hrun, hcount]
      exact ⟨List.nil_append _, Nat.zero_add _, iff_of_false (by simp) hfits,
        fun h => absurd h hfits, fun _ => ⟨rfl, front, payload, harrivals, hfront, hstop⟩⟩
  · rw [Writer.opened, run_unbounded, List.nil_append, Nat.zero_add, lines, List.length_map]

/-- A query for the name `a`. -/
def queryWire : Octets := [0, 1, 0, 0, 0, 1, 0, 0, 0, 0, 0, 0, 1, 97, 0, 0, 1, 0, 1]

/-- The limit falls on the end of the first line. The second line, which is empty, is refused at
its end, and the third datagram is not read. -/
theorem run_queryWire :
    let arrivals := [.datagram queryWire, .failure "gone", .datagram [], .datagram queryWire]
    let ended := run .domain (.opened (some 2) "pipe closed") arrivals
    lines .domain arrivals = [[97, 10], [10], [97, 10]] ∧
      ended.writer.accepted = [97, 10] ∧ ended.writer.flushes = 1 ∧
      ended.failure = some "pipe closed" ∧ ended.unread = [.datagram queryWire] ∧
      (run .domain (.opened none "pipe closed") arrivals).writer =
        ⟨none, "pipe closed", [97, 10, 10, 97, 10], 3⟩ := by
  intro arrivals ended
  have hlines : lines .domain arrivals = [[97, 10], [10], [97, 10]] := by decide +kernel
  obtain ⟨hlimited, hunlimited⟩ := run_eq_take .domain "pipe closed" arrivals
  obtain ⟨haccepted, hflushes, -, -, hstops⟩ := hlimited 2
  rw [hlines] at haccepted hflushes hstops hunlimited
  obtain ⟨hfailure, -⟩ := hstops (by decide)
  have hunread : ended.unread = [.datagram queryWire] := by decide +kernel
  exact ⟨hlines, haccepted, hflushes, hfailure, hunread, by rw [hunlimited]; rfl⟩

end Relay

end DnsTrace
