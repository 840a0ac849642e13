import DnsTrace.Proofs.Trace.Printing

/-!
# Sinks that refuse

Printing a text on an outlet has two ends. Either the outlet takes every character, one after the
other, or it takes some of them, refuses the next, and is offered nothing behind that. So what an
outlet has taken is always a front of the text, and a refusal is always told.

A bounded sink is an outlet that takes what it has room for. Writing a trace into it, fragment by
fragment, is printing the text of the trace, and so is printing a message or a payload piece by
piece.
-/

namespace DnsTrace

namespace Outlet

variable {σ : Type} [Outlet σ]

/-- The outlet takes these characters, one after the other. -/
inductive Takes : σ → List Char → σ → Prop
  | nil (outlet : σ) : Takes outlet [] outlet
  | cons {outlet next last : σ} {char : Char} {chars : List Char}
      (takes : offer char outlet = (true, next)) (others : Takes next chars last) :
      Takes outlet (char :: chars) last

/-- The outlet takes a front of these characters and refuses the next. -/
def Refuses (outlet : σ) (chars : List Char) (last : σ) : Prop :=
  ∃ front char back full, chars = front ++ char :: back ∧ Takes outlet front full ∧
    offer char full = (false, last)

end Outlet

section Ends

variable {σ : Type}

/-- What printing makes of an outlet: whether all was taken, and the outlet behind it. -/
def Printing.on (print : Printing σ Unit) (outlet : σ) : Bool × σ :=
  match print outlet with
  | (.ok (), next) => (true, next)
  | (.error (), next) => (false, next)

/-- A second step is printed on what the first has left, if nothing was refused. -/
theorem Printing.on_bind (first second : Printing σ Unit) (outlet : σ) :
    Printing.on (first >>= fun _ => second) outlet =
      match first.on outlet with
      | (true, next) => second.on next
      | (false, last) => (false, last) := by
  simp only [Printing.on, Effect.bind_apply]
  cases first outlet with
  | mk result next => cases result <;> rfl

variable [Outlet σ]

/-- The outlet takes the whole text, and that is told, or it refuses one of the characters, and
that is told. -/
def Printing.EndsWith (print : Printing σ Unit) (text : String) : Prop :=
  ∀ outlet last,
    (print.on outlet = (true, last) ↔ Outlet.Takes outlet text.toList last) ∧
      (print.on outlet = (false, last) ↔ Outlet.Refuses outlet text.toList last)

/-- Behind a character that is taken the others are printed. -/
theorem on_putChars_of_taken {char : Char} {outlet next : σ}
    (h : Outlet.offer char outlet = (true, next)) (chars : List Char) :
    (putChars (char :: chars) : Printing σ Unit).on outlet =
      (putChars chars : Printing σ Unit).on next := by
  rw [Printing.on, putChars]
  simp only [h]
  rfl

/-- Behind a character that is refused nothing is printed. -/
theorem on_putChars_of_refused {char : Char} {outlet next : σ}
    (h : Outlet.offer char outlet = (false, next)) (chars : List Char) :
    (putChars (char :: chars) : Printing σ Unit).on outlet = (false, next) := by
  rw [Printing.on, putChars]
  simp only [h]

/-- All characters are printed exactly on an outlet that takes them. -/
theorem on_putChars_eq_true_iff {chars : List Char} {outlet last : σ} :
    (putChars chars : Printing σ Unit).on outlet = (true, last) ↔
      Outlet.Takes outlet chars last := by
  constructor
  · intro h
    induction chars generalizing outlet with
    | nil =>
      cases h
      exact .nil _
    | cons char chars ih =>
      cases hoffer : Outlet.offer char outlet with
      | mk taken next =>
        cases taken with
        | true =>
          rw [on_putChars_of_taken hoffer] at h
          exact .cons hoffer (ih h)
        | false =>
          rw [on_putChars_of_refused hoffer] at h
          cases h
  · intro h
    induction h with
    | nil outlet => rfl
    | cons takes others ih => rw [on_putChars_of_taken takes, ih]

/-- Printing stops exactly at a character that the outlet refuses, behind those that it takes. -/
theorem on_putChars_eq_false_iff {chars : List Char} {outlet last : σ} :
    (putChars chars : Printing σ Unit).on outlet = (false, last) ↔
      Outlet.Refuses outlet chars last := by
  constructor
  · intro h
    induction chars generalizing outlet with
    | nil => cases h
    | cons char chars ih =>
      cases hoffer : Outlet.offer char outlet with
      | mk taken next =>
        cases taken with
        | true =>
          rw [on_putChars_of_taken hoffer] at h
          obtain ⟨front, refused, back, full, rfl, htakes, hrefuses⟩ := ih h
          exact ⟨char :: front, refused, back, full, rfl, .cons hoffer htakes, hrefuses⟩
        | false =>
          rw [on_putChars_of_refused hoffer] at h
          cases h
          exact ⟨[], char, chars, outlet, rfl, .nil outlet, hoffer⟩
  · rintro ⟨front, char, back, full, rfl, htakes, hrefuses⟩
    induction htakes with
    | nil outlet => exact on_putChars_of_refused hrefuses back
    | cons takes others ih => rw [List.cons_append, on_putChars_of_taken takes, ih hrefuses]

/-- A text is printed up to the first character that is refused. -/
theorem endsWith_put (text : String) : (put text : Printing σ Unit).EndsWith text := by
  intro outlet last
  rw [put]
  exact ⟨on_putChars_eq_true_iff, on_putChars_eq_false_iff⟩

end Ends

namespace Sink

/-- A sink is an outlet that refuses what it has no room for. -/
instance : Outlet Sink where
  offer char sink := if sink.isFull then (false, sink) else (true, sink.push char)

/-- Writing characters into a sink is printing them. -/
theorem on_putChars (chars : List Char) (sink : Sink) :
    (putChars chars : Printing Sink Unit).on sink = sink.write chars := by
  induction chars generalizing sink with
  | nil => rfl
  | cons char chars ih =>
    by_cases hfull : sink.isFull
    · rw [write, if_pos hfull, on_putChars_of_refused (if_pos hfull)]
    · rw [write, if_neg hfull, on_putChars_of_taken (if_neg hfull), ih]

/-- Writing a trace fragment by fragment is printing its text. -/
theorem on_put_render (token : String) (trace : Trace) (sink : Sink) :
    (put (trace.render token) : Printing Sink Unit).on sink = sink.writeTrace token trace := by
  induction trace generalizing sink with
  | nil =>
    rw [Trace.render_nil, put_empty]
    rfl
  | cons fragment trace ih =>
    have hfragment : (put (fragment.render token) : Printing Sink Unit).on sink =
        sink.write (fragment.render token).toList := by
      rw [put, on_putChars]
    rw [Trace.render_cons, put_append, Printing.on_bind, hfragment, writeTrace]
    cases sink.write (fragment.render token).toList with
    | mk taken next =>
      cases taken with
      | true => exact ih next
      | false => rfl

/-- Into an empty sink without a bound the whole text is written, and into one with room for
`room` characters that many of it; what is told is whether the text fits. -/
structure WritesFrontOf (write : Sink → Bool × Sink) (text : String) : Prop where
  unbounded : write (empty none) = (true, ⟨none, text⟩)
  bounded : ∀ room, write (empty (some room)) =
    (decide (text.length ≤ room),
      ⟨some (room - text.length), String.ofList (text.toList.take room)⟩)

/-- In a sink with room for exactly the text, the text fills it. -/
theorem WritesFrontOf.filled {write : Sink → Bool × Sink} {text : String}
    (h : WritesFrontOf write text) :
    write (empty (some text.length)) = (true, ⟨some 0, text⟩) := by
  rw [h.bounded, decide_eq_true (Nat.le_refl _), Nat.sub_self, ← String.length_toList,
    List.take_length, String.ofList_toList]

/-- In a sink with room for exactly the front of a text, that front is left, and the refusal of
the rest is told. -/
theorem WritesFrontOf.cut {write : Sink → Bool × Sink} {front back : String}
    (h : WritesFrontOf write (front ++ back)) (hback : back ≠ "") :
    write (empty (some front.length)) = (false, ⟨some 0, front⟩) := by
  have hrest : back.length ≠ 0 := mt String.length_eq_zero_iff.mp hback
  have hfull : ¬ (front ++ back).length ≤ front.length := by
    rw [String.length_append]
    omega
  rw [h.bounded, decide_eq_false hfull, String.toList_append, ← String.length_toList,
    List.take_left, String.ofList_toList, String.length_append, String.length_toList,
    Nat.sub_add_eq, Nat.sub_self, Nat.zero_sub]

/-- Writing a trace writes a front of its text. -/
theorem writesFrontOf_writeTrace (token : String) (trace : Trace) :
    WritesFrontOf (·.writeTrace token trace) (trace.render token) := by
  have hwrite (sink : Sink) :
      sink.writeTrace token trace = sink.write (trace.render token).toList := by
    rw [← on_put_render, put, on_putChars]
  constructor
  · rw [hwrite, empty, write_unbounded, String.empty_append, String.ofList_toList]
  · intro room
    rw [hwrite, empty, write_bounded, String.empty_append, String.length_toList]

/-- Whatever a sink has room for, a payload and a message leave a front of their trace in it. In a
sink without a bound it is the whole text; in one with room for `room` characters it is the first
`room` characters of that text, and success is told exactly when that is all of it. Printed piece
by piece, as the parts of a message nest, the trace leaves the same in every sink. On no outlet,
whenever and for whatever reason it refuses, is anything printed behind the first character that
is refused, or a refusal not told. Messages may be edited in any way before. -/
theorem writesFrontOf_trace (token : String) :
    (∀ payload : Octets,
      WritesFrontOf (·.writePayload token payload) ((Trace.ofPayload payload).render token) ∧
      (∀ sink : Sink,
        (printPayload token payload).on sink = sink.writePayload token payload) ∧
      ∀ (σ : Type) [Outlet σ], (printPayload token payload : Printing σ Unit).EndsWith
        ((Trace.ofPayload payload).render token)) ∧
    ∀ message : Message,
      WritesFrontOf (·.writeTrace token message.trace) (message.traceText token) ∧
      (∀ sink : Sink, (message.print token).on sink = sink.writeTrace token message.trace) ∧
      ∀ (σ : Type) [Outlet σ],
        (message.print token : Printing σ Unit).EndsWith (message.traceText token) := by
  refine ⟨fun payload => ⟨?_, fun sink => ?_, fun σ _ => ?_⟩,
    fun message => ⟨?_, fun sink => ?_, fun σ _ => ?_⟩⟩
  · exact writesFrontOf_writeTrace token (Trace.ofPayload payload)
  · rw [printPayload_eq]
    exact on_put_render token (Trace.ofPayload payload) sink
  · rw [printPayload_eq]
    exact endsWith_put _
  · exact writesFrontOf_writeTrace token message.trace
  · rw [message.print_eq]
    exact on_put_render token message.trace sink
  · rw [message.print_eq]
    exact endsWith_put _

/-- A response with an address, and with a client subnet among the options of its EDNS record. -/
def subnetWire : Octets :=
  [0, 1, 0x84, 0, 0, 0, 0, 1, 0, 0, 0, 1,
   1, 97, 0, 0, 1, 0, 1, 0, 0, 0, 60, 0, 4, 192, 0, 2, 1,
   0, 0, 41, 4, 0xd0, 0, 0, 0x80, 0, 0, 11, 0, 8, 0, 7, 0, 1, 24, 0, 192, 0, 2]

/-- The trace of this response up to the middle of the address. -/
def addressFront : String := " dns QUERY,NOERROR,1,qr|aa 0 1 a,IN,A,60,192."

/-- The trace of this response from there up to the middle of the subnet. -/
def subnetFront : String :=
  "0.2.1 0 1 .,CLASS1232,OPT,32768,edns0[len=11,UDP=1232," ++
    ("ver=0,rcode=0,DO=1,z=0] edns0[code=8,codelen=7] " ++ "edns0_client_subnet=192.0.")

/-- The trace of this response has 189 characters. With room for 45 of them the address of the
answer is cut, with room for 173 the subnet inside its option, inside the EDNS record; both are
told as refusals, also when the trace is printed piece by piece. -/
theorem writePayload_subnetWire :
    (empty none).writePayload "" subnetWire =
        (true, ⟨none, addressFront ++ subnetFront ++ "2.0/24 (scope 0)"⟩) ∧
      (empty (some 189)).writePayload "" subnetWire =
        (true, ⟨some 0, addressFront ++ subnetFront ++ "2.0/24 (scope 0)"⟩) ∧
      (printPayload "" subnetWire).on (empty (some 173)) =
        (false, ⟨some 0, addressFront ++ subnetFront⟩) ∧
      (printPayload "" subnetWire).on (empty (some 45)) = (false, ⟨some 0, addressFront⟩) := by
  have htext : (Trace.ofPayload subnetWire).render "" =
      addressFront ++ subnetFront ++ "2.0/24 (scope 0)" := by
    decide +kernel
  have haddress : addressFront.length = 45 := by decide +kernel
  have hsubnet : (addressFront ++ subnetFront).length = 173 := by
    unfold subnetFront
    simp only [String.length_append, haddress]
    decide +kernel
  have hlength : (addressFront ++ subnetFront ++ "2.0/24 (scope 0)").length = 189 := by
    have hrest : "2.0/24 (scope 0)".length = 16 := by decide +kernel
    rw [String.length_append, hsubnet, hrest]
  obtain ⟨hpayload, -⟩ := writesFrontOf_trace ""
  obtain ⟨hfront, hprint, -⟩ := hpayload subnetWire
  rw [htext] at hfront
  refine ⟨hfront.unbounded, ?_, ?_, ?_⟩
  · exact hlength ▸ hfront.filled
  · rw [hprint, ← hsubnet]
    exact hfront.cut (by decide)
  · rw [String.append_assoc] at hfront
    rw [hprint, ← haddress]
    exact hfront.cut (by decide)

end Sink

end DnsTrace
