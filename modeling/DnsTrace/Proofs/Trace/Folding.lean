import DnsTrace.Proofs.Trace.Characters
import DnsTrace.Proofs.Trace.Printing

/-!
# Folding a trace

What is written of a trace is its pieces with the continuation token between them. The pieces do
not depend on the token, and their number is a matter of the message alone: the head, every
question, every record and the options of every EDNS record are preceded by one fold.

The continuation token of the multiline format is found again in what was written, since a
piece has no newline of its own: the newlines are those of the tokens, and the text without the
tokens is the line format.
-/

namespace DnsTrace

namespace Trace

/-- The texts between the folds of a trace, those before the first and behind the last
included. -/
def pieces : Trace → List String
  | [] => [""]
  | .text content :: trace => (pieces trace).modifyHead (content ++ ·)
  | .fold :: trace => "" :: pieces trace

/-- How many folds a trace has. -/
def folds (trace : Trace) : Nat :=
  trace.count .fold

/-- There is one piece more than there are folds. -/
theorem length_pieces (trace : Trace) : trace.pieces.length = trace.folds + 1 := by
  induction trace with
  | nil => rfl
  | cons fragment trace ih =>
    cases fragment with
    | text content =>
      rw [pieces, List.length_modifyHead, ih, folds, folds, List.count_cons_of_ne (by simp)]
    | fold => rw [pieces, List.length_cons, ih, folds, folds, List.count_cons_self]

/-- The text of a trace is its pieces, joined by the token. -/
theorem render_eq_intercalate (token : String) (trace : Trace) :
    trace.render token = token.intercalate trace.pieces := by
  induction trace with
  | nil => rw [render_nil, pieces, String.intercalate_singleton]
  | cons fragment trace ih =>
    have hpieces : pieces trace ≠ [] := by
      apply List.ne_nil_of_length_pos
      rw [length_pieces]
      exact Nat.succ_pos _
    rw [render_cons, ih]
    cases fragment with
    | text content =>
      obtain ⟨first, others, hsplit⟩ := List.exists_cons_of_ne_nil hpieces
      rw [pieces, hsplit, List.modifyHead_cons, String.intercalate_cons_append]
      rfl
    | fold =>
      rw [pieces, String.intercalate_cons_of_ne_nil hpieces, String.empty_append]
      rfl

/-- An empty trace has no folds. -/
@[simp] theorem folds_nil : folds [] = 0 := rfl

/-- A piece of text is no fold. -/
@[simp] theorem folds_text (content : String) (trace : Trace) :
    folds (.text content :: trace) = folds trace := by
  rw [folds, folds, List.count_cons_of_ne (by simp)]

/-- A fold is one more. -/
@[simp] theorem folds_fold (trace : Trace) : folds (.fold :: trace) = folds trace + 1 := by
  rw [folds, folds, List.count_cons_self]

/-- The folds of two traces in a row are counted together. -/
@[simp] theorem folds_append (first second : Trace) :
    folds (first ++ second) = folds first + folds second := by
  rw [folds, folds, folds, List.count_append]

/-- Texts alone have no folds. -/
theorem folds_map_text {α : Type} (items : List α) (text : α → String) :
    folds (items.map fun item => .text (text item)) = 0 := by
  induction items with
  | nil => rfl
  | cons item items ih => rw [List.map_cons, folds_text, ih]

/-- A section has one fold in front of every item. -/
theorem folds_ofItems (items : List Trace) :
    folds (ofItems items) = items.length + (items.map folds).sum := by
  cases items with
  | nil => rfl
  | cons first others =>
    have hothers : folds (others.flatMap fun item => [.text " ", .fold] ++ item) =
        others.length + (others.map folds).sum := by
      induction others with
      | nil => rfl
      | cons item others ih =>
        simp only [List.flatMap_cons, folds_append, folds_text, folds_fold, folds_nil, ih,
          List.length_cons, List.map_cons, List.sum_cons]
        omega
    simp only [ofItems, folds_append, folds_text, folds_fold, folds_nil, hothers,
      List.length_cons, List.map_cons, List.sum_cons]
    omega

end Trace

/-- The data is that of an EDNS record. -/
def RecordData.isOpt : RecordData → Bool
  | opt _ => true
  | _ => false

/-- A record has a fold inside only if its data is that of an EDNS record. -/
theorem Record.folds_trace (record : Record String) (message : Message) :
    (record.trace message).folds = if (record.data message).isOpt then 1 else 0 := by
  rw [trace, Trace.folds_text]
  cases record.data message with
  | opt edns =>
    simp only [RecordData.isOpt, Trace.folds_append, Trace.folds_text, Trace.folds_fold,
      Trace.folds_nil, Trace.folds_map_text, if_true]
  | _ => rfl

namespace Message

/-- The records of the answer, authority and additional sections in wire order. -/
def allRecords (message : Message) : List (Record String) :=
  message.body.answers ++ message.body.authority ++ message.body.additional

/-- How many places a message has at which its trace may be folded. -/
def foldCount (message : Message) : Nat :=
  1 + message.body.questions.length + message.allRecords.length +
    message.allRecords.countP fun record => (record.data message).isOpt

/-- The folds in the traces of some records are those of the EDNS records. -/
theorem sum_folds_records (message : Message) (records : List (Record String)) :
    ((records.map (Record.trace · message)).map Trace.folds).sum =
      records.countP fun record => (record.data message).isOpt := by
  induction records with
  | nil => rfl
  | cons record records ih =>
    rw [List.map_cons, List.map_cons, List.sum_cons, ih, List.countP_cons, Record.folds_trace,
      Nat.add_comm]

/-- Questions have no folds inside. -/
theorem sum_folds_questions (questions : List (Question String)) :
    ((questions.map Question.trace).map Trace.folds).sum = 0 := by
  induction questions with
  | nil => rfl
  | cons question questions ih =>
    rw [List.map_cons, List.map_cons, List.sum_cons, ih]
    rfl

/-- One fold stands in front of the head, each question, each record and each list of EDNS
options. -/
theorem folds_trace (message : Message) : message.trace.folds = message.foldCount := by
  have hrecords (records : List (Record String)) :
      (Trace.ofItems (records.map (Record.trace · message))).folds =
        records.length + records.countP fun record => (record.data message).isOpt := by
    rw [Trace.folds_ofItems, List.length_map, sum_folds_records]
  have hquestions : (Trace.ofItems (message.body.questions.map Question.trace)).folds =
      message.body.questions.length := by
    rw [Trace.folds_ofItems, List.length_map, sum_folds_questions, Nat.add_zero]
  have hheader : message.header.trace.folds = 1 := rfl
  have hsections : Section.all.flatMap (fun part => Trace.ofItems (message.itemTraces part)) =
      Trace.ofItems (message.body.questions.map Question.trace) ++
        (Trace.ofItems (message.body.answers.map (Record.trace · message)) ++
          (Trace.ofItems (message.body.authority.map (Record.trace · message)) ++
            (Trace.ofItems (message.body.additional.map (Record.trace · message)) ++ []))) := rfl
  rw [trace, hsections]
  simp only [Trace.folds_append, Trace.folds_nil, hheader, hquestions, hrecords, foldCount,
    allRecords, List.length_append, List.countP_append]
  omega

end Message

/-- How many places a captured payload has at which its trace may be folded. -/
def Trace.payloadFolds (payload : Octets) : Nat :=
  match Message.parse payload with
  | .ok message => message.foldCount
  | .error _ => 1

/-- The trace of a captured payload has these folds. -/
theorem Trace.folds_ofPayload (payload : Octets) :
    (ofPayload payload).folds = payloadFolds payload := by
  unfold ofPayload payloadFolds
  cases Message.parse payload with
  | ok message => exact message.folds_trace
  | error fault => rfl

namespace Format

/-- The characters that are left when every continuation token is deleted. -/
def withoutTokens : List Char → List Char
  | '\\' :: '\n' :: '\t' :: rest => withoutTokens rest
  | char :: rest => char :: withoutTokens rest
  | [] => []

/-- A token is deleted. -/
theorem withoutTokens_continuation (rest : List Char) :
    withoutTokens (continuation.toList ++ rest) = withoutTokens rest := rfl

/-- A character that no newline follows is no part of a token that starts with it. -/
theorem withoutTokens_cons {char : Char} {rest : List Char} (h : rest.head? ≠ some '\n') :
    withoutTokens (char :: rest) = char :: withoutTokens rest := by
  rw [withoutTokens.eq_def]
  split
  · rename_i heq
    cases heq
    exact absurd rfl h
  · rename_i heq
    cases heq
    rfl
  · rename_i heq
    cases heq

/-- Characters are kept when no newline is among them or follows them. -/
theorem withoutTokens_append {front rest : List Char} (hfront : '\n' ∉ front)
    (hrest : rest.head? ≠ some '\n') :
    withoutTokens (front ++ rest) = front ++ withoutTokens rest := by
  induction front with
  | nil => rfl
  | cons char front ih =>
    rw [List.mem_cons, not_or] at hfront
    have hnext : (front ++ rest).head? ≠ some '\n' := by
      cases front with
      | nil => exact hrest
      | cons next front =>
        intro heq
        cases heq
        exact hfront.2 List.mem_cons_self
    rw [List.cons_append, withoutTokens_cons hnext, ih hfront.2]
    rfl

end Format

/-- A printable text has no newline. -/
theorem VisibleFrom.newline_not_mem {content : String} (h : Printable content) :
    '\n' ∉ content.toList := by
  intro hmem
  exact absurd (h '\n' hmem).1 (by decide)

namespace Trace

variable {trace : Trace}

/-- The folded text of printable pieces does not begin with a newline. -/
theorem head_render_ne_newline (h : AllPrintable trace) :
    (trace.render Format.continuation).toList.head? ≠ some '\n' := by
  induction trace with
  | nil => simp
  | cons fragment trace ih =>
    rw [render_cons, String.toList_append]
    cases fragment with
    | text content =>
      rw [allPrintable_text] at h
      have hnewline := h.1.newline_not_mem
      change (content.toList ++ _).head? ≠ _
      cases hcontent : content.toList with
      | nil => exact ih h.2
      | cons char rest =>
        rw [hcontent, List.mem_cons, not_or] at hnewline
        intro heq
        cases heq
        exact hnewline.1 rfl
    | fold =>
      intro heq
      cases heq

/-- Without its tokens, a folded text of printable pieces is the text on one line. -/
theorem withoutTokens_render (h : AllPrintable trace) :
    Format.withoutTokens (trace.render Format.continuation).toList = (trace.render "").toList := by
  induction trace with
  | nil => rfl
  | cons fragment trace ih =>
    rw [render_cons, render_cons, String.toList_append, String.toList_append]
    cases fragment with
    | text content =>
      rw [allPrintable_text] at h
      change Format.withoutTokens (content.toList ++ _) = content.toList ++ _
      rw [Format.withoutTokens_append h.1.newline_not_mem (head_render_ne_newline h.2), ih h.2]
    | fold =>
      rw [allPrintable_fold] at h
      change Format.withoutTokens (Format.continuation.toList ++ _) = [] ++ _
      rw [Format.withoutTokens_continuation, ih h, List.nil_append]

/-- The newlines of a folded text of printable pieces are those of its folds. -/
theorem count_newline_render (h : AllPrintable trace) :
    (trace.render Format.continuation).toList.count '\n' = trace.folds := by
  induction trace with
  | nil => rfl
  | cons fragment trace ih =>
    rw [render_cons, String.toList_append, List.count_append]
    cases fragment with
    | text content =>
      rw [allPrintable_text] at h
      change content.toList.count '\n' + _ = _
      rw [List.count_eq_zero.mpr h.1.newline_not_mem, ih h.2, folds_text, Nat.zero_add]
    | fold =>
      rw [allPrintable_fold] at h
      have htoken : Format.continuation.toList.count '\n' = 1 := by decide
      change Format.continuation.toList.count '\n' + _ = _
      rw [htoken, ih h, folds_fold, Nat.add_comm]

/-- A character of two texts in a row is a character of one of them. -/
theorem split_append {char : Char} {front rest before after : List Char}
    (h : front ++ rest = before ++ char :: after) :
    (∃ inner, front = before ++ char :: inner ∧ after = inner ++ rest) ∨
      ∃ middle, before = front ++ middle ∧ rest = middle ++ char :: after := by
  rcases List.append_eq_append_iff.mp h with ⟨middle, hbefore, hrest⟩ | ⟨inner, hfront, hinner⟩
  · exact .inr ⟨middle, hbefore, hrest⟩
  · cases inner with
    | nil => exact .inr ⟨[], by rw [hfront, List.append_nil, List.append_nil], hinner.symm⟩
    | cons first inner =>
      cases hinner
      exact .inl ⟨inner, hfront, rfl⟩

/-- The newline of a token stands between its two other characters. -/
theorem token_eq_split {before inner : List Char}
    (h : Format.continuation.toList = before ++ '\n' :: inner) :
    before = ['\\'] ∧ inner = ['\t'] := by
  have htoken : Format.continuation.toList = ['\\', '\n', '\t'] := rfl
  rw [htoken] at h
  simpa [List.cons_eq_append_iff, List.append_eq_cons_iff] using h

/-- A newline in a folded text of printable pieces stands inside a token. -/
theorem token_around_newline (h : AllPrintable trace) {before after : List Char}
    (hsplit : (trace.render Format.continuation).toList = before ++ '\n' :: after) :
    ∃ front back, before = front ++ ['\\'] ∧ after = '\t' :: back := by
  induction trace generalizing before with
  | nil => simp at hsplit
  | cons fragment trace ih =>
    rw [render_cons, String.toList_append] at hsplit
    have hrest : AllPrintable trace := fun content hcontent =>
      h content (List.mem_cons_of_mem _ hcontent)
    rcases split_append hsplit with ⟨inner, hinner, rfl⟩ | ⟨middle, rfl, hmiddle⟩
    · cases fragment with
      | text content =>
        have hnewline := (h content List.mem_cons_self).newline_not_mem
        change content.toList = _ at hinner
        rw [hinner] at hnewline
        exact absurd (List.mem_append_right before List.mem_cons_self) hnewline
      | fold =>
        obtain ⟨rfl, rfl⟩ := token_eq_split hinner
        exact ⟨[], _, rfl, rfl⟩
    · obtain ⟨front, back, rfl, rfl⟩ := ih hrest hmiddle
      exact ⟨_ ++ front, back, (List.append_assoc _ _ _).symm, rfl⟩

end Trace

namespace Format

/-- The law of folding. The trace of every message, read or put together by hand, is the same
pieces joined by the token, and the head, every question, every record and the options of every
EDNS record have a fold in front; a payload that is no message has one fold. Nor does what is
printed piece by piece, where every part is handed the token, hang on it in any other way: on
whatever outlet, with whatever token, it is those pieces joined. So the multiline format of a
payload has as many newlines as folds, each inside a token, and without the tokens it is the line
format. -/
theorem withoutTokens_multiline_eq_line :
    (∀ message : Message, ∃ pieces : List String,
      pieces.length = message.foldCount + 1 ∧
        ∀ token, message.traceText token = token.intercalate pieces ∧
          ∀ (σ : Type) [Outlet σ],
            (message.print token : Printing σ Unit) = put (token.intercalate pieces)) ∧
    ∀ payload,
      (∃ pieces : List String, pieces.length = Trace.payloadFolds payload + 1 ∧
        ∀ token, (Trace.ofPayload payload).render token = token.intercalate pieces ∧
          ∀ (σ : Type) [Outlet σ],
            (printPayload token payload : Printing σ Unit) = put (token.intercalate pieces)) ∧
      (multiline.render payload).toList.count '\n' = Trace.payloadFolds payload ∧
      (∀ before after, (multiline.render payload).toList = before ++ '\n' :: after →
        ∃ front back, before = front ++ ['\\'] ∧ after = '\t' :: back) ∧
      String.ofList (withoutTokens (multiline.render payload).toList) = line.render payload := by
  constructor
  · intro message
    refine ⟨message.trace.pieces, ?_, fun token => ?_⟩
    · rw [Trace.length_pieces, message.folds_trace]
    · have hpieces : message.traceText token = token.intercalate message.trace.pieces :=
        message.trace.render_eq_intercalate token
      exact ⟨hpieces, fun σ _ => (message.print_eq token).trans (congrArg put hpieces)⟩
  · intro payload
    have hprintable := Trace.allPrintable_ofPayload payload
    refine ⟨⟨(Trace.ofPayload payload).pieces, ?_, fun token => ?_⟩, ?_, ?_, ?_⟩
    · rw [Trace.length_pieces, Trace.folds_ofPayload]
    · have hpieces := (Trace.ofPayload payload).render_eq_intercalate token
      exact ⟨hpieces, fun σ _ => (printPayload_eq token payload).trans (congrArg put hpieces)⟩
    · rw [← Trace.folds_ofPayload]
      exact Trace.count_newline_render hprintable
    · intro before after hsplit
      exact Trace.token_around_newline hprintable hsplit
    · change String.ofList (withoutTokens ((Trace.ofPayload payload).render continuation).toList) =
        (Trace.ofPayload payload).render ""
      rw [Trace.withoutTokens_render hprintable, String.ofList_toList]

/-- A query without a question, with one EDNS record. -/
def optWire : Octets :=
  [0, 1, 0, 0, 0, 0, 0, 0, 0, 0, 0, 1, 0, 0, 41, 4, 0xd0, 0, 0, 0, 0, 0, 0]

/-- The head, the record and its options are folded in this query. The reason why an empty
payload is no message is folded once. -/
theorem count_newline_optWire :
    Trace.payloadFolds optWire = 3 ∧
      (multiline.render optWire).toList.count '\n' = 3 ∧
      Trace.payloadFolds [] = 1 ∧
      (multiline.render []).toList =
        [' ', '\\'] ++ '\n' :: "\tdns malformed message at offset 0 (Eof)".toList ∧
      (∃ front back, [' ', '\\'] = front ++ ['\\'] ∧
        "\tdns malformed message at offset 0 (Eof)".toList = '\t' :: back) ∧
      String.ofList (withoutTokens (multiline.render []).toList) = line.render [] := by
  have hfolds : Trace.payloadFolds optWire = 3 := by decide +kernel
  have hempty : (multiline.render []).toList =
      [' ', '\\'] ++ '\n' :: "\tdns malformed message at offset 0 (Eof)".toList := by decide
  obtain ⟨-, hpayload⟩ := withoutTokens_multiline_eq_line
  obtain ⟨-, hcount, -⟩ := hpayload optWire
  obtain ⟨-, -, htoken, hline⟩ := hpayload []
  exact ⟨hfolds, hcount.trans hfolds, rfl, hempty, htoken _ _ hempty, hline⟩

end Format

end DnsTrace
