import DnsTrace.Proofs.Message.Tiling
import DnsTrace.Proofs.Name.Presentation

/-!
# The names that are resolved

Names are resolved in two ways: at an offset that a caller gives, and for the items of a
message once all of it is framed. Either way the text is that of the labels which the walk
collects, so it can be read back, and two names have one text exactly when they have the same
labels.
-/

namespace DnsTrace

namespace Body

variable {ν μ : Type}

/-- The names of all items, in wire order. -/
def names (body : Body ν) : List ν :=
  body.questions.map (·.name) ++ (body.answers.map (·.name) ++
    (body.authority.map (·.name) ++ body.additional.map (·.name)))

/-- The name of a question is a name of the body. -/
theorem mem_names_of_question {body : Body ν} {question : Question ν}
    (h : question ∈ body.questions) : question.name ∈ body.names :=
  List.mem_append_left _ (List.mem_map_of_mem h)

/-- The name of a record of any section is a name of the body. -/
theorem mem_names_of_record {body : Body ν} {part : Section} {record : Record ν}
    (h : record ∈ body.records part) : record.name ∈ body.names := by
  have hmem {records : List (Record ν)} (h : record ∈ records) :
      record.name ∈ records.map (·.name) := List.mem_map_of_mem h
  simp only [names, List.mem_append]
  cases part with
  | question => cases h
  | answer => exact .inr (.inl (hmem h))
  | authority => exact .inr (.inr (.inl (hmem h)))
  | additional => exact .inr (.inr (.inr (hmem h)))

/-- Every name of a body stands where its item is written. -/
theorem WrittenAt.exists_named {raw : Octets} {Named : ν → Nat → Nat → Prop} {body : Body ν}
    {start stop : Nat} (h : body.WrittenAt raw Named start stop) {name : ν}
    (hname : name ∈ body.names) : ∃ start used, Named name start used := by
  have hrecord {records : List (Record ν)} {start stop : Nat}
      (h : Tiled (Record.WrittenAt raw Named) start records stop)
      (hname : name ∈ records.map (·.name)) : ∃ start used, Named name start used := by
    obtain ⟨record, hrecord, rfl⟩ := List.mem_map.mp hname
    obtain ⟨start, stop, used, _, hnamed, -⟩ := h.exists_of_mem hrecord
    exact ⟨start, used, hnamed⟩
  obtain ⟨_, _, _, tiled₁, tiled₂, tiled₃, tiled₄⟩ := h
  simp only [names, List.mem_append] at hname
  obtain hname | hname | hname | hname := hname
  · obtain ⟨question, hquestion, rfl⟩ := List.mem_map.mp hname
    obtain ⟨start, stop, used, hnamed, -⟩ := tiled₁.exists_of_mem hquestion
    exact ⟨start, used, hnamed⟩
  · exact hrecord tiled₂ hname
  · exact hrecord tiled₃ hname
  · exact hrecord tiled₄ hname

/-- Changing the names of a body changes its list of names, one by one. -/
theorem forall₂_names_of_mapNames {change : ν → Except Fault μ} {body : Body ν}
    {renamed : Body μ} (h : body.mapNames change = .ok renamed) :
    List.Forall₂ (fun name result => change name = .ok result) body.names renamed.names := by
  have hrecords {records : List (Record ν)} {results : List (Record μ)}
      (h : List.Forall₂ (fun record result => record.mapName change = .ok result) records results) :
      List.Forall₂ (fun name result => change name = .ok result) (records.map (·.name))
        (results.map (·.name)) := by
    rw [List.forall₂_map_left_iff, List.forall₂_map_right_iff]
    exact h.imp fun record result hresult => (Record.mapName_eq_ok_iff.mp hresult).1
  simp only [mapNames, bind_eq_ok_iff, mapM_eq_ok_iff] at h
  obtain ⟨questions, forall₁, answers, forall₂, authority, forall₃, additional, forall₄, hpure⟩ := h
  cases hpure
  have hquestions : List.Forall₂ (fun name result => change name = .ok result)
      (body.questions.map (·.name)) (questions.map (·.name)) := by
    rw [List.forall₂_map_left_iff, List.forall₂_map_right_iff]
    exact forall₁.imp fun question result hresult => (Question.mapName_eq_ok_iff.mp hresult).1
  exact List.rel_append hquestions (List.rel_append (hrecords forall₂)
    (List.rel_append (hrecords forall₃) (hrecords forall₄)))

end Body

/-- The name between an offset and a limit is read as this text, and the walk from the offset
collects these labels. -/
def Message.ResolvesAt (message : Message) (offset limit : Nat) (labels : DomainName)
    (text : String) : Prop :=
  (∃ used, message.nameAt offset limit = .ok (text, used)) ∧
    ∃ (run : Run) (pointers : List Nat), run.LiesIn (message.raw.drop offset) ∧
      Walk.Unfolds message.raw run pointers labels

/-- The name of an item of a message is read as this text, and the walk from the run that was
framed for the item collects these labels. -/
def Message.ResolvesItem (raw : Octets) (index : Nat) (labels : DomainName) (text : String) :
    Prop :=
  ∃ envelope next message run pointers,
    Envelope.read (.start raw) = .ok (envelope, next) ∧ parse raw = .ok message ∧
      envelope.body.names[index]? = some run ∧ message.body.names[index]? = some text ∧
      Walk.Unfolds raw run pointers labels

/-- A text was resolved, and these labels are what the walk of its name collects. -/
inductive Resolved : DomainName → String → Prop
  | atOffset {message : Message} {offset limit : Nat} {labels : DomainName} {text : String}
      (resolves : message.ResolvesAt offset limit labels text) : Resolved labels text
  | ofItem {raw : Octets} {index : Nat} {labels : DomainName} {text : String}
      (resolves : Message.ResolvesItem raw index labels text) : Resolved labels text

namespace Message

/-- A message is read from an envelope whose runs stand in it and are resolved one by one. -/
theorem exists_envelope_of_parse {raw : Octets} {message : Message}
    (h : parse raw = .ok message) :
    ∃ envelope next, Envelope.read (.start raw) = .ok (envelope, next) ∧
      (∀ run ∈ envelope.body.names, run.WellFormed) ∧
      List.Forall₂ (fun run text => ∃ name, run.resolve raw = .ok name ∧ name.text = text)
        envelope.body.names message.body.names := by
  simp only [parse, bind_eq_ok_iff] at h
  obtain ⟨⟨envelope, next⟩, hframed, body, hbody, hpure⟩ := h
  cases hpure
  obtain ⟨_, ⟨_, _, _, _, hwritten⟩, -⟩ := (Envelope.reads raw 0 envelope next).mp hframed
  refine ⟨envelope, next, hframed, ?_, ?_⟩
  · intro run hrun
    obtain ⟨start, used, hstands, -⟩ := hwritten.exists_named hrun
    exact hstands.1
  · exact (Body.forall₂_names_of_mapNames hbody).imp fun run text hchange =>
      map_eq_ok_iff.mp hchange

/-- What is read at an offset is resolved from the run there, to the labels collected from it. -/
theorem ResolvesAt.exists_resolve {message : Message} {offset limit : Nat} {labels : DomainName}
    {text : String} (h : message.ResolvesAt offset limit labels text) :
    ∃ run : Run, run.WellFormed ∧ run.resolve message.raw = .ok labels ∧ text = labels.text := by
  obtain ⟨⟨used, hread⟩, run, pointers, hstands, hwalk⟩ := h
  obtain ⟨run', name, hlies, hresolve, htext, -⟩ := nameAt_eq_ok_iff.mp hread
  obtain rfl := hlies.of_between.unique hstands
  obtain rfl := hwalk.eq_of_resolve hresolve
  exact ⟨run', hstands.1, hresolve, htext⟩

/-- The name of an item is resolved from its run, to the labels collected from it. -/
theorem ResolvesItem.exists_resolve {raw : Octets} {index : Nat} {labels : DomainName}
    {text : String} (h : ResolvesItem raw index labels text) :
    ∃ run : Run, run.WellFormed ∧ run.resolve raw = .ok labels ∧ text = labels.text := by
  obtain ⟨envelope, next, message, run, pointers, hframed, hparsed, hrun, htext, hwalk⟩ := h
  obtain ⟨envelope', next', hframed', hwell, hforall⟩ := exists_envelope_of_parse hparsed
  rw [hframed] at hframed'
  cases hframed'
  obtain ⟨hindex, rfl⟩ := List.getElem?_eq_some_iff.mp hrun
  obtain ⟨hindex', rfl⟩ := List.getElem?_eq_some_iff.mp htext
  obtain ⟨name, hresolve, hname⟩ := hforall.get hindex hindex'
  obtain rfl := hwalk.eq_of_resolve hresolve
  exact ⟨_, hwell _ (List.getElem_mem hindex), hresolve, hname.symm⟩

/-- Whatever is read at an offset comes from labels that are collected from there. -/
theorem exists_resolvesAt {message : Message} {offset limit used : Nat} {text : String}
    (h : message.nameAt offset limit = .ok (text, used)) :
    ∃ labels, message.ResolvesAt offset limit labels text := by
  obtain ⟨run, name, hlies, hresolve, htext, -⟩ := nameAt_eq_ok_iff.mp h
  obtain ⟨pointers, hunfolds, -⟩ := Run.resolve_eq_ok_iff.mp hresolve
  exact ⟨name, ⟨used, h⟩, run, pointers, hlies.of_between, hunfolds⟩

/-- Every name of a message comes from labels that are collected from the run of its item. -/
theorem exists_resolvesItem {raw : Octets} {message : Message} (h : parse raw = .ok message)
    {index : Nat} {text : String} (htext : message.body.names[index]? = some text) :
    ∃ labels, ResolvesItem raw index labels text := by
  obtain ⟨envelope, next, hframed, -, hforall⟩ := exists_envelope_of_parse h
  obtain ⟨hindex, rfl⟩ := List.getElem?_eq_some_iff.mp htext
  have hindex' : index < envelope.body.names.length := by
    rw [hforall.length_eq]
    exact hindex
  obtain ⟨name, hresolve, -⟩ := hforall.get hindex' hindex
  obtain ⟨pointers, hunfolds, -⟩ := Run.resolve_eq_ok_iff.mp hresolve
  exact ⟨name, envelope, next, message, _, pointers, hframed, h,
    List.getElem?_eq_getElem hindex', htext, hunfolds⟩

end Message

namespace Resolved

/-- Every text is resolved from a run, to the labels that the walk from there collects. -/
theorem exists_resolve {labels : DomainName} {text : String} (h : Resolved labels text) :
    ∃ (raw : Octets) (run : Run),
      run.WellFormed ∧ run.resolve raw = .ok labels ∧ text = labels.text := by
  cases h with
  | atOffset resolves => exact ⟨_, resolves.exists_resolve⟩
  | ofItem resolves => exact ⟨_, resolves.exists_resolve⟩

/-- The text that is resolved is that of labels with something in them. -/
theorem text_eq {labels : DomainName} {text : String} (h : Resolved labels text) :
    text = labels.text ∧ ∀ label ∈ labels, label ≠ [] := by
  obtain ⟨raw, run, hrun, hresolve, htext⟩ := h.exists_resolve
  obtain ⟨pointers, hwalk, -⟩ := Run.resolve_eq_ok_iff.mp hresolve
  exact ⟨htext, hwalk.label_ne_nil hrun⟩

/-- The text of a name is faithful. Everything that is resolved comes from labels with something
in them, its text is read back as exactly these labels, and so two names have one text just
when they have the same labels, wherever and however they are written. -/
theorem ofText_eq_labels :
    (∀ (message : Message) (offset limit used : Nat) (text : String),
      message.nameAt offset limit = .ok (text, used) →
        ∃ labels, message.ResolvesAt offset limit labels text) ∧
    (∀ (raw : Octets) (message : Message) (index : Nat) (text : String),
      Message.parse raw = .ok message → message.body.names[index]? = some text →
        ∃ labels, Message.ResolvesItem raw index labels text) ∧
    (∀ (labels : DomainName) (text : String), Resolved labels text →
      (∀ label ∈ labels, label ≠ []) ∧ DomainName.ofText text = labels) ∧
    DomainName.ofText "." = [] ∧
    ∀ (labels labels' : DomainName) (text text' : String),
      Resolved labels text → Resolved labels' text' → (text = text' ↔ labels = labels') := by
  have hread {labels : DomainName} {text : String} (h : Resolved labels text) :
      DomainName.ofText text = labels := by
    obtain ⟨rfl, hlabels⟩ := h.text_eq
    exact DomainName.ofText_text hlabels
  refine ⟨fun message offset limit used text h => Message.exists_resolvesAt h,
    fun raw message index text h htext => Message.exists_resolvesItem h htext,
    fun labels text h => ⟨h.text_eq.2, hread h⟩, rfl, ?_⟩
  intro labels labels' text text' h h'
  refine ⟨fun htext => ?_, fun hlabels => ?_⟩
  · rw [← hread h, ← hread h', htext]
  · rw [h.text_eq.1, h'.text_eq.1, hlabels]

/-- A capture of a label of a dot and the octet 200, and behind it of a pointer to it. -/
def dotted : Message where
  header := ⟨0, .query, .noError, ⟨false, false, false, false, false, false, false, false⟩⟩
  body := ⟨[], [], [], []⟩
  raw := [2, 46, 200, 0, 0xc0, 0]

/-- Both names of the capture are read with one text, and the text gives back the label. -/
theorem ofText_dotted :
    dotted.nameAt 0 6 = .ok ("\\.\\200", 4) ∧ dotted.nameAt 4 6 = .ok ("\\.\\200", 2) ∧
      Resolved [[46, 200]] "\\.\\200" ∧ DomainName.ofText "\\.\\200" = [[46, 200]] := by
  have hlabel : (⟨[[46, 200]], none⟩ : Run).LiesIn dotted.raw :=
    ⟨⟨by decide, by decide⟩, by decide⟩
  have hpointer : (⟨[], some 0⟩ : Run).LiesIn (dotted.raw.drop 4) :=
    ⟨⟨by decide, by decide⟩, by decide⟩
  have hends : Walk.Unfolds dotted.raw ⟨[[46, 200]], none⟩ [] [[46, 200]] := .ends [[46, 200]]
  have hfollows : Walk.Unfolds dotted.raw ⟨[], some 0⟩ [0] [[46, 200]] :=
    .follows [] (by decide) hlabel hends
  have hresolve := Run.resolve_eq_ok_iff.mpr ⟨_, hends, by decide, by decide⟩
  have hresolve' := Run.resolve_eq_ok_iff.mpr ⟨_, hfollows, by decide, by decide⟩
  have hfirst : dotted.nameAt 0 6 = .ok ("\\.\\200", 4) :=
    Message.nameAt_eq_ok_iff.mpr ⟨_, _, hlabel, hresolve, by decide, rfl⟩
  have hsecond : dotted.nameAt 4 6 = .ok ("\\.\\200", 2) :=
    Message.nameAt_eq_ok_iff.mpr ⟨_, _, hpointer, hresolve', by decide, rfl⟩
  have hresolved : Resolved [[46, 200]] "\\.\\200" :=
    .atOffset ⟨⟨_, hsecond⟩, _, _, hpointer, hfollows⟩
  obtain ⟨-, -, hread, -⟩ := ofText_eq_labels
  exact ⟨hfirst, hsecond, hresolved, (hread _ _ hresolved).2⟩

end Resolved

end DnsTrace
