import AssignOnce.Editor.Server
import Mathlib.Data.List.Basic

/-!
# Runs of the editor server

A run (`Server.run`) takes one event after the other, each with an analysis of its own, so that
nothing is assumed of what analyses find or when they fail. What a step makes of a document is said
once: an event changes the document it is about (`Event.apply`) and no other one, and the analysis
that follows changes actions only (`Server.document?_after`).
-/

namespace AssignOnce

/-! ## Documents by URI -/

section Lookup

variable {uri u : String} {d : Document} {docs : List (String × Document)}

theorem lookup_cons_eq_ite :
    ((uri, d) :: docs).lookup u = if u = uri then some d else docs.lookup u := by
  by_cases hu : u = uri
  · simp [hu]
  · rw [List.lookup_cons, beq_false_of_ne hu, if_neg hu]

theorem lookup_filter_ne :
    (docs.filter fun (v, _) => v != uri).lookup u = if u = uri then none else docs.lookup u := by
  induction docs with
  | nil => simp
  | cons p docs ih =>
    obtain ⟨v, d⟩ := p
    by_cases hv : v = uri
    · rw [List.filter_cons_of_neg (by simp [hv]), ih, lookup_cons_eq_ite, hv]
      split <;> rfl
    · rw [List.filter_cons_of_pos (by simp [hv]), lookup_cons_eq_ite, lookup_cons_eq_ite, ih]
      by_cases hu : u = v
      · rw [if_pos hu, if_pos hu, if_neg (by rwa [hu])]
      · rw [if_neg hu, if_neg hu]

theorem lookup_map_ite (change : Document → Document) :
    (docs.map fun (v, d) => (v, if v == uri then change d else d)).lookup u =
      (docs.lookup u).map fun d => if u = uri then change d else d := by
  induction docs with
  | nil => rfl
  | cons p docs ih =>
    obtain ⟨v, d⟩ := p
    rw [List.map_cons, lookup_cons_eq_ite, lookup_cons_eq_ite, ih]
    by_cases hu : u = v
    · simp [hu]
    · rw [if_neg hu, if_neg hu]

end Lookup

namespace Server

variable (s : Server)

@[simp] theorem document?_put (uri u : String) (d : Document) :
    (s.put uri d).document? u = if u = uri then some d else s.document? u := by
  unfold document? put
  rw [List.lookup_append, lookup_filter_ne, lookup_cons_eq_ite]
  split <;> simp

@[simp] theorem document?_update (uri u : String) (change : Document → Document) :
    (s.update uri change).document? u =
      (s.document? u).map fun d => if u = uri then change d else d :=
  lookup_map_ite change

@[simp] theorem document?_remove (uri u : String) :
    (s.remove uri).document? u = if u = uri then none else s.document? u :=
  lookup_filter_ne

/-! ## Events -/

namespace Event

/-- The document that an event is about. -/
def uri : Event → String
  | .opened uri _ | .changed uri _ | .saved uri _ | .closed uri => uri

/-- What an event makes of the document it is about. -/
def apply (doc? : Option Document) : Event → Option Document
  | .opened uri text =>
    match Uri.filePath uri with
    | .ok path => some ⟨path, Utf8.encode text, []⟩
    | .error _ => doc?
  | .changed _ changes =>
    doc?.map fun d => { d with content := changes.foldl Change.apply d.content }
  | .saved _ (some text) => doc?.map fun d => { d with content := Utf8.encode text }
  | .saved _ none => doc?
  | .closed _ => none

/-- What an event makes of any document. -/
def applyAt (uri : String) (doc? : Option Document) (e : Event) : Option Document :=
  if uri = e.uri then e.apply doc? else doc?

end Event

/-- The server after an event, before any analysis. An event that is refused changes nothing. -/
def received (e : Event) : Server :=
  match s.receive e with
  | .ok s' => s'
  | .error _ => s

variable {s} {uri : String}

/-- An event changes the document it is about, and no other one. -/
theorem document?_received (e : Event) :
    (s.received e).document? uri = e.applyAt uri (s.document? uri) := by
  cases e with
  | opened u text =>
    cases hp : Uri.filePath u with
    | ok path =>
      simp only [received, receive, hp, document?_put, Event.applyAt, Event.uri, Event.apply]
    | error err => simp [received, receive, hp, Event.applyAt, Event.apply]
  | changed u changes =>
    cases hd : s.document? u with
    | some d =>
      simp only [received, receive, hd, document?_update, Event.applyAt, Event.uri, Event.apply]
      by_cases hu : uri = u <;> simp [hu]
    | none =>
      simp only [received, receive, hd, Event.applyAt, Event.uri, Event.apply]
      by_cases hu : uri = u <;> simp [hu, hd]
  | saved u text? =>
    cases text? with
    | none => simp [received, receive, Event.applyAt, Event.apply]
    | some text =>
      simp only [received, receive, document?_update, Event.applyAt, Event.uri, Event.apply]
      by_cases hu : uri = u <;> simp [hu]
  | closed u =>
    rw [received, receive, document?_remove]
    rfl

theorem document?_receive {e : Event} {s' : Server} (h : s.receive e = .ok s') :
    s'.document? uri = e.applyAt uri (s.document? uri) := by
  rw [← document?_received, received, h]

/-! ## Steps -/

/-- The content of a document. -/
def content? (s : Server) (uri : String) : Option Bytes :=
  (s.document? uri).map (·.content)

/-- An event and the analysis that answers it. -/
structure Step where
  event : Event
  analysis : Server → Snapshot → Option (List Located)

/-- The server after a step. An event that is refused changes nothing. -/
def after (s : Server) (t : Step) : Server :=
  match s.handle t.analysis t.event with
  | .ok (s', _) => s'
  | .error _ => s

/-- The server after some steps. -/
def run (s : Server) (steps : List Step) : Server :=
  steps.foldl after s

/-- What a step finds out about a document, with the snapshot that was analysed. There is none if
the step is not about the document, the document is not open or the analysis fails. -/
def findings? (s : Server) (t : Step) (uri : String) : Option (Snapshot × List Located) :=
  match s.receive t.event with
  | .ok s' =>
    if uri = t.event.uri then
      (s'.snapshot? uri).bind fun snap => (t.analysis s' snap).map fun found => (snap, found)
    else none
  | .error _ => none

@[simp] theorem run_nil (s : Server) : s.run [] = s := rfl

@[simp] theorem run_concat (s : Server) (steps : List Step) (t : Step) :
    s.run (steps ++ [t]) = (s.run steps).after t := by
  simp [run]

theorem snapshot?_eq_some {snap : Snapshot} (h : s.snapshot? uri = some snap) :
    ∃ d, s.document? uri = some d ∧
      snap = ⟨uri, d.path, d.content, .ofDocuments (s.documents.map (·.2))⟩ := by
  obtain ⟨d, hd, rfl⟩ := Option.map_eq_some_iff.1 h
  exact ⟨d, hd, rfl⟩

/-- A document with the actions for some findings. -/
def withActions (d : Document) (found : List Located) : Document :=
  { d with actions := found.flatMap (·.actions d.content) }

/-- Publishing keeps the actions of an analysis that succeeds, and changes nothing else. -/
theorem document?_publishWith (analysis : Snapshot → Option (List Located)) (u : String) :
    (s.publishWith analysis u).1.document? uri = (s.document? uri).map fun d =>
      match if uri = u then (s.snapshot? u).bind analysis else none with
      | some found => withActions d found
      | none => d := by
  unfold publishWith
  cases hs : s.snapshot? u with
  | none => simp
  | some snap =>
    obtain ⟨d, hd, rfl⟩ := snapshot?_eq_some hs
    simp only [Option.bind_some]
    cases ha : analysis _ with
    | none => simp
    | some found =>
      simp only [commit, hd, if_true, document?_update]
      by_cases hu : uri = u
      · simp [hu, hd, withActions]
      · simp [hu]

/-- A step changes a document as its event says, and an analysis that succeeds then changes its
actions. -/
theorem document?_after (t : Step) :
    (s.after t).document? uri = (t.event.applyAt uri (s.document? uri)).map fun d =>
      match s.findings? t uri with
      | some (_, found) => withActions d found
      | none => d := by
  unfold after handle findings?
  cases hr : s.receive t.event with
  | error err =>
    have hsame : s.document? uri = t.event.applyAt uri (s.document? uri) := by
      rw [← document?_received, received, hr]
    simp [← hsame]
  | ok s' =>
    have hrespond : (s'.respond (t.analysis s') t.event).1 =
        (s'.publishWith (t.analysis s') t.event.uri).1 := by
      cases he : t.event with
      | opened u text => rfl
      | changed u changes => rfl
      | saved u text? => rfl
      | closed u =>
        -- a closed document is not analysed, nor would it be
        have hnone : s'.document? u = none := by
          rw [document?_receive hr, he]
          simp [Event.applyAt, Event.uri, Event.apply]
        simp [respond, publishWith, snapshot?, Event.uri, hnone]
    simp only [hrespond, document?_publishWith, document?_receive hr]
    by_cases hu : uri = t.event.uri
    · subst hu
      cases hs : s'.snapshot? t.event.uri with
      | none => simp
      | some snap => cases ha : t.analysis s' snap <;> simp [ha]
    · simp [hu]

/-- An analysis changes no content. -/
theorem content?_after (t : Step) :
    (s.after t).content? uri = (t.event.applyAt uri (s.document? uri)).map (·.content) := by
  rw [content?, document?_after, Option.map_map]
  congr 1
  funext d
  simp only [Function.comp]
  cases s.findings? t uri with
  | none => rfl
  | some found => rfl

end Server

end AssignOnce
