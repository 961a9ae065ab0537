import AssignOnce.Proofs.Editor.Overlay

/-!
# Calls that overlap

Every event is handled by a call of its own. A call takes up its event, looks at the documents,
analyses what it has seen and keeps the actions, and sends what it has found (`Server.Call`).
Between these steps other calls may take theirs. A schedule says whose turn it is; a run of calls
along a schedule (`Server.Traffic.run`) is any interleaving of their steps.

A publication is current if it is what an analysis of the present content of its document finds
(`Server.Current`). Nothing is compared before a publication is sent, so the last one that the
editor gets may be an old one (`Server.old_publication_last`). When all calls are done
(`Server.publications_of_interleaving`):

* the current publication has been sent in any case;
* it is the last one, if no event about the document has been taken up while another call had seen
  the document and had not yet sent what it found.
-/

namespace AssignOnce

namespace Server

/-! ## Calls -/

/-- What a call has to do next. -/
inductive Call where
  /-- To take up its event. -/
  | waiting (e : Event)
  /-- To look at the documents. -/
  | looking (uri : String)
  /-- To analyse what it has seen, and to keep the actions. -/
  | analysing (snap : Snapshot)
  /-- To send what it has found. -/
  | sending (p : Publication)
  /-- Nothing. -/
  | finished
  deriving DecidableEq, Repr

namespace Call

/-- What a call has to do after its event. -/
def following : Event → Call
  | .closed uri => .sending ⟨uri, []⟩
  | e => .looking e.uri

/-- The next step of a call: the server after it, what is left to do, and what is sent. -/
def step (find : Snapshot → List Located) (s : Server) : Call → Server × Call × List Publication
  | .waiting e =>
    match s.receive e with
    | .ok s' => (s', following e, [])
    | .error _ => (s, .finished, [])
  | .looking uri =>
    match s.snapshot? uri with
    | some snap => (s, .analysing snap, [])
    | none => (s, .finished, [])
  | .analysing snap => (s.commit snap (find snap), .sending (publication snap (find snap)), [])
  | .sending p => (s, .finished, [p])
  | .finished => (s, .finished, [])

/-- Whether a call is about to take up an event about a document. -/
def takesUp (uri : String) : Call → Bool
  | .waiting e => e.uri == uri
  | _ => false

/-- What a call is going to send, once it has seen the documents. -/
def outcome? (find : Snapshot → List Located) : Call → Option Publication
  | .analysing snap => some (publication snap (find snap))
  | .sending p => some p
  | _ => none

end Call

/-- Calls that are handled by one server. -/
structure Traffic where
  server : Server
  calls : List Call
  sent : List Publication

namespace Traffic

/-- Calls for some events, none of which has been taken up. -/
def begin (version : String) (options : List ConfigOption) (events : List Event) : Traffic :=
  ⟨start version options, events.map .waiting, []⟩

/-- One of the calls takes its next step. -/
def step (find : Snapshot → List Located) (σ : Traffic) (i : Nat) : Traffic :=
  match σ.calls[i]? with
  | some c =>
    let (s, c', sent) := c.step find σ.server
    ⟨s, σ.calls.set i c', σ.sent ++ sent⟩
  | none => σ

/-- The calls take their steps in the order of a schedule. -/
def run (find : Snapshot → List Located) (σ : Traffic) (schedule : List Nat) : Traffic :=
  schedule.foldl (step find) σ

/-- Whether nothing is left to do. -/
def Finished (σ : Traffic) : Prop :=
  ∀ c ∈ σ.calls, c = .finished

instance (σ : Traffic) : Decidable σ.Finished :=
  inferInstanceAs (Decidable (∀ c ∈ σ.calls, _))

/-- The last publication about a document. -/
def last? (uri : String) (sent : List Publication) : Option Publication :=
  (sent.filter (·.uri == uri)).getLast?

/-- Whether the next step of a call takes up an event about a document while another call has seen
the document and has not yet sent what it found. -/
def overtakes (find : Snapshot → List Located) (uri : String) (σ : Traffic) (i : Nat) : Bool :=
  (σ.calls[i]?.any fun c => c.takesUp uri) &&
    σ.calls.any fun c => (c.outcome? find).any fun p => p.uri == uri

/-- Whether no call about a document overtakes another one in a run. -/
def undisturbed (find : Snapshot → List Located) (uri : String) : Traffic → List Nat → Bool
  | _, [] => true
  | σ, i :: rest => !σ.overtakes find uri i && undisturbed find uri (σ.step find i) rest

section Uninterrupted

variable {find : Snapshot → List Located} {calls : List Call} {i : Nat} (hi : i < calls.length)
include hi

theorem step_set (s : Server) (c : Call) (sent : List Publication) :
    step find ⟨s, calls.set i c, sent⟩ i =
      ⟨(c.step find s).1, calls.set i (c.step find s).2.1, sent ++ (c.step find s).2.2⟩ := by
  simp [step, hi]

theorem run_looking (s : Server) (uri : String) (sent : List Publication) :
    run find ⟨s, calls.set i (.looking uri), sent⟩ [i, i, i] =
      ⟨(s.publishWith (fun snap => some (find snap)) uri).1, calls.set i .finished,
        sent ++ (s.publishWith (fun snap => some (find snap)) uri).2⟩ := by
  simp only [run, List.foldl_cons, List.foldl_nil, step_set hi, publishWith]
  cases hs : s.snapshot? uri <;> simp [Call.step, hs]

/-- The steps of a call that is not interrupted are what is done to handle its event. -/
theorem run_uninterrupted (s : Server) (e : Event) (sent : List Publication) :
    run find ⟨s, calls.set i (.waiting e), sent⟩ [i, i, i, i] =
      match s.handle (fun _ snap => some (find snap)) e with
      | .ok (s', new) => ⟨s', calls.set i .finished, sent ++ new⟩
      | .error _ => ⟨s, calls.set i .finished, sent⟩ := by
  have hfirst : run find ⟨s, calls.set i (.waiting e), sent⟩ [i, i, i, i] =
      run find (step find ⟨s, calls.set i (.waiting e), sent⟩ i) [i, i, i] := rfl
  rw [hfirst, step_set hi, Call.step, handle]
  cases s.receive e with
  | error err => simp [run, step_set hi, Call.step]
  | ok s' =>
    cases e with
    | opened uri text | changed uri changes | saved uri text? =>
      simp [Call.following, run_looking hi, respond, Event.uri]
    | closed uri => simp [Call.following, run, step_set hi, Call.step, respond]

end Uninterrupted

end Traffic

/-! ## What a step of a call does -/

/-- The path and the content of a document. -/
def text? (s : Server) (uri : String) : Option (Bytes × Bytes) :=
  (s.document? uri).map fun d => (d.path, d.content)

/-- Whether a publication is what an analysis of the present content of its document finds; other
documents may have changed since. A document that is not open has no diagnostics. -/
def Current (find : Snapshot → List Located) (s : Server) (p : Publication) : Prop :=
  match s.text? p.uri with
  | some (path, content) => ∃ overlay : Overlay, overlay.lookup path = some content ∧
      p = publication ⟨p.uri, path, content, overlay⟩ (find ⟨p.uri, path, content, overlay⟩)
  | none => p.diagnostics = []

/-- Whether two URIs name different files, unless they are the same. -/
def Separate (uri u : String) : Prop :=
  ∀ path, Uri.filePath u = .ok path → Uri.filePath uri = .ok path → u = uri

variable {find : Snapshot → List Located} {s : Server} {uri : String}

theorem current_congr {s' : Server} {p : Publication} (h : s'.text? p.uri = s.text? p.uri) :
    Current find s' p ↔ Current find s p := by
  unfold Current
  rw [h]

theorem text?_receive {e : Event} {s' : Server} (hr : s.receive e = .ok s') (hu : uri ≠ e.uri) :
    s'.text? uri = s.text? uri := by
  rw [text?, text?, document?_receive hr, Event.applyAt, if_neg hu]

theorem text?_commit (snap : Snapshot) (found : List Located) :
    (s.commit snap found).text? uri = s.text? uri := by
  unfold commit
  split
  · split
    · rw [text?, text?, document?_update, Option.map_map]
      congr 1
      funext d
      simp only [Function.comp]
      split <;> rfl
    · rfl
  · rfl

/-- A look at the documents, while no other document has the path of the one that is seen. -/
theorem Consistent.current_of_snapshot? (h : s.Consistent)
    (hseparate : ∀ u d, s.document? u = some d → Separate uri u) {snap : Snapshot}
    (hs : s.snapshot? uri = some snap) : Current find s (publication snap (find snap)) := by
  obtain ⟨d, hd, rfl⟩ := snapshot?_eq_some hs
  have hpath {u : String} {e : Document} (he : s.document? u = some e) :
      Uri.filePath u = .ok e.path := h.path (h.mem_documents_iff.2 he)
  have hreads : s.Reads uri d.content := by
    refine h.reads_of_unique hd fun u e he hsame => ?_
    obtain rfl := hseparate u e he d.path (hsame ▸ hpath he) (hpath hd)
    rw [Option.some.inj (he.symm.trans hd)]
  unfold Current
  simp only [publication, text?, hd, Option.map_some]
  exact ⟨_, ((reads_iff hd).1 hreads).2, rfl⟩

/-- Whether a call is going to send the current publication about a document. -/
def Promised (find : Snapshot → List Located) (uri : String) (s : Server) (c : Call) : Prop :=
  c = .looking uri ∧ (s.text? uri).isSome ∨
    ∃ p ∈ c.outcome? find, p.uri = uri ∧ Current find s p

theorem promised_congr {s' : Server} {c : Call} (h : s'.text? uri = s.text? uri) :
    Promised find uri s' c ↔ Promised find uri s c := by
  unfold Promised
  rw [h]
  refine or_congr_right (exists_congr fun p => and_congr_right fun _ => and_congr_right ?_)
  rintro rfl
  exact current_congr h

/-- What an event does to the document it is about, and what its call does next. -/
theorem apply_cases (e : Event) (doc? : Option Document) :
    Call.following e = .sending ⟨e.uri, []⟩ ∧ e.apply doc? = none ∨
      Call.following e = .looking e.uri ∧ (e.apply doc? = none → doc? = none) := by
  cases e with
  | opened u text =>
    refine .inr ⟨rfl, ?_⟩
    rw [Event.apply]
    cases Uri.filePath u <;> simp
  | changed u changes => simp [Call.following, Event.apply]
  | saved u text? => cases text? <;> simp [Call.following, Event.apply]
  | closed u => exact .inl ⟨rfl, rfl⟩

/-- The steps that a call can take. -/
inductive Call.Steps (find : Snapshot → List Located) (s : Server) :
    Call → Server → Call → List Publication → Prop
  | refused {e : Event} {err : ServerError} : s.receive e = .error err →
      Steps find s (.waiting e) s .finished []
  | closed {e : Event} {s' : Server} : s.receive e = .ok s' → s'.document? e.uri = none →
      Steps find s (.waiting e) s' (.sending ⟨e.uri, []⟩) []
  | taken {e : Event} {s' : Server} : s.receive e = .ok s' →
      (s'.document? e.uri = none → s.document? e.uri = none) →
      Steps find s (.waiting e) s' (.looking e.uri) []
  | missed {uri : String} : s.document? uri = none → Steps find s (.looking uri) s .finished []
  | seen {uri : String} {snap : Snapshot} : s.snapshot? uri = some snap →
      Steps find s (.looking uri) s (.analysing snap) []
  | analysed {snap : Snapshot} : Steps find s (.analysing snap) (s.commit snap (find snap))
      (.sending (publication snap (find snap))) []
  | sent {p : Publication} : Steps find s (.sending p) s .finished [p]
  | idle : Steps find s .finished s .finished []

theorem Call.steps_step (c : Call) :
    c.Steps find s (c.step find s).1 (c.step find s).2.1 (c.step find s).2.2 := by
  cases c with
  | waiting e =>
    rw [step]
    cases hr : s.receive e with
    | error err => exact .refused hr
    | ok s' =>
      have hdoc : s'.document? e.uri = e.apply (s.document? e.uri) := by
        rw [document?_receive hr, Event.applyAt, if_pos rfl]
      rcases apply_cases e (s.document? e.uri) with ⟨hc, hnone⟩ | ⟨hc, hnone⟩
      · simp only [hc]
        exact .closed hr (hdoc.trans hnone)
      · simp only [hc]
        exact .taken hr (hdoc ▸ hnone)
  | looking u =>
    rw [step]
    cases hs : s.snapshot? u with
    | none => exact .missed (Option.map_eq_none_iff.1 hs)
    | some snap => exact .seen hs
  | analysing snap => exact .analysed
  | sending p => exact .sent
  | finished => exact .idle

namespace Call.Steps

variable {c c' : Call} {s' : Server} {new : List Publication} (h : c.Steps find s s' c' new)
include h

/-- Only an event about a document changes its text. -/
theorem text?_eq (hc : ∀ e, c = .waiting e → uri ≠ e.uri) : s'.text? uri = s.text? uri := by
  cases h with
  | closed hr | taken hr => exact text?_receive hr (hc _ rfl)
  | analysed => exact text?_commit _ _
  | refused | missed | seen | sent | idle => rfl

theorem consistent (hs : s.Consistent) : s'.Consistent := by
  cases h with
  | closed hr | taken hr => exact hs.receive hr
  | analysed => exact hs.commit _ _
  | refused | missed | seen | sent | idle => exact hs

/-- A document that is open after a step was so before, or is the one of the event. -/
theorem document?_cases {u : String} {d : Document} (hd : s'.document? u = some d) :
    (∃ d₀, s.document? u = some d₀) ∨ ∃ e, c = .waiting e ∧ u = e.uri := by
  by_cases he : ∃ e, c = .waiting e ∧ u = e.uri
  · exact .inr he
  · left
    have htext : s'.text? u = s.text? u := h.text?_eq fun e hc hu => he ⟨e, hc, hu⟩
    rw [text?, hd] at htext
    obtain ⟨d₀, hd₀, -⟩ := Option.map_eq_some_iff.1 htext.symm
    exact ⟨d₀, hd₀⟩

/-- A call sends only what it was going to send. -/
theorem outcome?_of_mem {p : Publication} (hp : p ∈ new) : c.outcome? find = some p := by
  cases h with
  | sent => rw [List.mem_singleton.1 hp]; rfl
  | refused | closed | taken | missed | seen | analysed | idle => cases hp

/-- What a call is going to send stays as it was, or is current. -/
theorem outcome?_cases (hs : s.Consistent)
    (hseparate : ∀ u d, s.document? u = some d → Separate uri u) {p : Publication}
    (hp : c'.outcome? find = some p) (hu : p.uri = uri) :
    c.outcome? find = some p ∨ Current find s' p := by
  cases h with
  | closed hr hnone =>
    cases hp
    right
    simp [Current, text?, hnone]
  | @seen u snap hsnap =>
    cases hp
    obtain ⟨d, -, rfl⟩ := snapshot?_eq_some hsnap
    obtain rfl : u = uri := hu
    exact .inr (hs.current_of_snapshot? hseparate hsnap)
  | analysed => exact .inl hp
  | refused | taken | missed | sent | idle => cases hp

/-- A step leaves the text of a document as it was, or its call is going to send the current
publication. -/
theorem promised_or_text?_eq : Promised find uri s' c' ∨ s'.text? uri = s.text? uri := by
  by_cases hc : ∃ e, c = .waiting e ∧ uri = e.uri
  · obtain ⟨e, rfl, rfl⟩ := hc
    cases h with
    | refused => exact .inr rfl
    | closed hr hnone => exact .inl (.inr ⟨_, rfl, rfl, by simp [Current, text?, hnone]⟩)
    | taken hr hnone =>
      cases hd : s'.document? e.uri with
      | some d => exact .inl (.inl ⟨rfl, by simp [text?, hd]⟩)
      | none => exact .inr (by rw [text?, text?, hd, hnone hd])
  · exact .inr (h.text?_eq fun e he hu => hc ⟨e, he, hu⟩)

/-- A promise is kept by its call until the text of the document changes. -/
theorem promised (hs : s.Consistent)
    (hseparate : ∀ u d, s.document? u = some d → Separate uri u)
    (htext : s'.text? uri = s.text? uri) (hc : Promised find uri s c) :
    Promised find uri s' c' ∨ ∃ p ∈ new, p.uri = uri ∧ Current find s' p := by
  rcases hc with ⟨rfl, hopen⟩ | ⟨p, hp, hu, hcurrent⟩
  · cases h with
    | missed hnone => simp [text?, hnone] at hopen
    | seen hsnap =>
      obtain ⟨d, -, rfl⟩ := snapshot?_eq_some hsnap
      exact .inl (.inr ⟨_, rfl, rfl, hs.current_of_snapshot? hseparate hsnap⟩)
  · have hcurrent' : Current find s' p := (current_congr (hu ▸ htext)).2 hcurrent
    cases h with
    | analysed => exact .inl (.inr ⟨p, hp, hu, hcurrent'⟩)
    | sent =>
      cases hp
      exact .inr ⟨p, List.mem_singleton_self p, hu, hcurrent'⟩
    | refused | closed | taken | missed | seen | idle => cases hp

end Call.Steps

/-! ## What a run of calls keeps -/

namespace Traffic

variable {σ : Traffic}

/-- What one of the calls does in a step. -/
theorem step_cases (find : Snapshot → List Located) (σ : Traffic) (i : Nat) :
    σ.step find i = σ ∨ ∃ front c back s' c' new, σ.calls = front ++ c :: back ∧
      σ.calls[i]? = some c ∧ c.Steps find σ.server s' c' new ∧
      σ.step find i = ⟨s', front ++ c' :: back, σ.sent ++ new⟩ := by
  unfold step
  cases hc : σ.calls[i]? with
  | none => exact .inl rfl
  | some c =>
    obtain ⟨hi, hget⟩ := List.getElem?_eq_some_iff.1 hc
    refine .inr ⟨σ.calls.take i, c, σ.calls.drop (i + 1), _, _, _, ?_, rfl, c.steps_step, ?_⟩
    · rw [← hget, ← List.drop_eq_getElem_cons hi, List.take_append_drop]
    · simp [List.set_eq_take_append_cons_drop, hi]

/-- The documents are held as after events that come one after the other, and no other URI names
the file of a document. -/
structure Orderly (uri : String) (σ : Traffic) : Prop where
  consistent : σ.server.Consistent
  opened (u : String) (d : Document) : σ.server.document? u = some d → Separate uri u
  waiting (e : Event) : .waiting e ∈ σ.calls → Separate uri e.uri

theorem Orderly.step (h : Orderly uri σ) (i : Nat) : Orderly uri (σ.step find i) := by
  rcases step_cases find σ i with heq | ⟨front, c, back, s', c', new, hcalls, -, hstep, heq⟩
  · rw [heq]
    exact h
  · rw [heq]
    have hwaiting : ∀ e, .waiting e ∈ front ++ c :: back → Separate uri e.uri :=
      fun e he => h.waiting e (hcalls ▸ he)
    refine ⟨hstep.consistent h.consistent, fun u d hd => ?_, fun e he => ?_⟩
    · rcases hstep.document?_cases hd with ⟨d₀, hd₀⟩ | ⟨e, rfl, rfl⟩
      · exact h.opened u d₀ hd₀
      · exact hwaiting e (by simp)
    · have hnew : c' ≠ .waiting e := by cases hstep <;> simp
      have hold : .waiting e ∈ front ++ c :: back := by
        simp only [List.mem_append, List.mem_cons, hnew.symm, false_or] at he ⊢
        tauto
      exact hwaiting e hold

/-- The current publication about a document has been sent or is going to be, unless the document
is not open and there has been no publication about it. -/
def Answered (find : Snapshot → List Located) (uri : String) (σ : Traffic) : Prop :=
  (∃ c ∈ σ.calls, Promised find uri σ.server c) ∨
    (∃ p ∈ σ.sent, p.uri = uri ∧ Current find σ.server p) ∨
    σ.server.text? uri = none ∧ (∀ c ∈ σ.calls, ∀ p ∈ c.outcome? find, p.uri ≠ uri) ∧
      ∀ p ∈ σ.sent, p.uri ≠ uri

theorem mem_middle {front back : List Call} {c c' x : Call} (h : x ∈ front ++ c :: back) :
    x = c ∨ x ∈ front ++ c' :: back := by
  simp only [List.mem_append, List.mem_cons] at h ⊢
  tauto

theorem Answered.step (h : Answered find uri σ) (ho : Orderly uri σ) (i : Nat) :
    Answered find uri (σ.step find i) := by
  rcases step_cases find σ i with heq | ⟨front, c, back, s', c', new, hcalls, -, hstep, heq⟩
  · rw [heq]
    exact h
  unfold Answered at h ⊢
  rw [hcalls] at h
  rw [heq]
  by_cases hpromised : Promised find uri s' c'
  · exact .inl ⟨c', by simp, hpromised⟩
  have htext := hstep.promised_or_text?_eq.resolve_left hpromised
  rcases h with ⟨x, hx, hxp⟩ | ⟨p, hp, hu, hcurrent⟩ | ⟨hnone, hcalls', hsent⟩
  · rcases mem_middle hx with rfl | hx
    · obtain ⟨p, hp, hpu⟩ :=
        (hstep.promised ho.consistent ho.opened htext hxp).resolve_left hpromised
      exact .inr (.inl ⟨p, List.mem_append_right _ hp, hpu⟩)
    · exact .inl ⟨x, hx, (promised_congr htext).2 hxp⟩
  · exact .inr (.inl ⟨p, List.mem_append_left _ hp, hu, (current_congr (hu ▸ htext)).2 hcurrent⟩)
  · refine .inr (.inr ⟨htext.trans hnone, fun x hx p hp hu => ?_, fun p hp hu => ?_⟩)
    · rcases mem_middle hx with rfl | hx
      · rcases hstep.outcome?_cases ho.consistent ho.opened hp hu with hold | hcurrent
        · exact hcalls' c (by simp) p hold hu
        · exact hpromised (.inr ⟨p, hp, hu, hcurrent⟩)
      · exact hcalls' x hx p hp hu
    · rcases List.mem_append.1 hp with hp | hp
      · exact hsent p hp hu
      · exact hcalls' c (by simp) p (hstep.outcome?_of_mem hp) hu

theorem last?_append {sent new : List Publication} {p : Publication}
    (h : last? uri (sent ++ new) = some p) :
    p ∈ new ∧ p.uri = uri ∨ last? uri sent = some p ∧ ∀ q ∈ new, q.uri ≠ uri := by
  unfold last? at h ⊢
  rw [List.filter_append, List.getLast?_append] at h
  cases hlast : (new.filter (·.uri == uri)).getLast? with
  | some q =>
    rw [hlast] at h
    cases h
    exact .inl (by simpa using List.mem_filter.1 (List.mem_of_getLast? hlast))
  | none =>
    rw [hlast] at h
    exact .inr ⟨h, by simpa using List.getLast?_eq_none_iff.1 hlast⟩

/-- What all calls are going to send about a document is current, and so is the last publication
about it unless another one is going to be sent. -/
structure Settled (find : Snapshot → List Located) (uri : String) (σ : Traffic) : Prop where
  calls : ∀ c ∈ σ.calls, ∀ p ∈ c.outcome? find, p.uri = uri → Current find σ.server p
  last : (∃ c ∈ σ.calls, Promised find uri σ.server c) ∨
    ∀ p, last? uri σ.sent = some p → Current find σ.server p

theorem Settled.step (h : Settled find uri σ) (ho : Orderly uri σ) {i : Nat}
    (hi : σ.overtakes find uri i = false) : Settled find uri (σ.step find i) := by
  rcases step_cases find σ i with heq | ⟨front, c, back, s', c', new, hcalls, hc, hstep, heq⟩
  · rw [heq]
    exact h
  -- while a call is going to send something about the document, its text does not change
  have hkeep : ∀ x ∈ σ.calls, ∀ p ∈ x.outcome? find, p.uri = uri → Current find s' p := by
    intro x hx p hp hu
    by_cases hevent : ∃ e, c = .waiting e ∧ uri = e.uri
    · obtain ⟨e, rfl, rfl⟩ := hevent
      have hover : σ.overtakes find e.uri i := by
        simp only [overtakes, hc, Bool.and_eq_true, List.any_eq_true, Option.any_eq_true]
        exact ⟨⟨_, rfl, by simp [Call.takesUp]⟩, x, hx, p, hp, by simp [hu]⟩
      rw [hi] at hover
      cases hover
    · have htext : s'.text? uri = σ.server.text? uri :=
        hstep.text?_eq fun e he hu => hevent ⟨e, he, hu⟩
      exact (current_congr (hu ▸ htext)).2 (h.calls x hx p hp hu)
  have hmem : c ∈ σ.calls := by simp [hcalls]
  rw [heq]
  constructor
  · intro x hx p hp hu
    rcases mem_middle hx with rfl | hx
    · rcases hstep.outcome?_cases ho.consistent ho.opened hp hu with hold | hcurrent
      · exact hkeep c hmem p hold hu
      · exact hcurrent
    · exact hkeep x (hcalls ▸ hx) p hp hu
  · by_cases hpromised : Promised find uri s' c'
    · exact .inl ⟨c', by simp, hpromised⟩
    have htext := hstep.promised_or_text?_eq.resolve_left hpromised
    have hnew : ∀ p ∈ new, p.uri = uri → Current find s' p := fun p hp =>
      hkeep c hmem p (hstep.outcome?_of_mem hp)
    rcases h.last with ⟨x, hx, hxp⟩ | hlast
    · rcases mem_middle (hcalls ▸ hx) with rfl | hx
      · -- the promise has been kept by what was sent, and that comes last
        obtain ⟨q, hq, hqu, -⟩ :=
          (hstep.promised ho.consistent ho.opened htext hxp).resolve_left hpromised
        refine .inr fun p hp => ?_
        rcases last?_append hp with ⟨hp, hu⟩ | ⟨-, hother⟩
        · exact hnew p hp hu
        · exact absurd hqu (hother q hq)
      · exact .inl ⟨x, hx, (promised_congr htext).2 hxp⟩
    · refine .inr fun p hp => ?_
      rcases last?_append hp with ⟨hp, hu⟩ | ⟨hp, -⟩
      · exact hnew p hp hu
      · have hu : p.uri = uri := by simpa using (List.mem_filter.1 (List.mem_of_getLast? hp)).2
        exact (current_congr (hu ▸ htext)).2 (hlast p hp)

/-! ### Whole runs -/

theorem orderly_begin (version : String) (options : List ConfigOption) {events : List Event}
    (h : ∀ e ∈ events, Separate uri e.uri) : Orderly uri (begin version options events) := by
  refine ⟨consistent_start version options, fun u d hd => (by cases hd), fun e he => ?_⟩
  obtain ⟨e', he', heq⟩ := List.mem_map.1 he
  cases heq
  exact h e he'

theorem outcome?_begin {version : String} {options : List ConfigOption} {events : List Event}
    {c : Call} (hc : c ∈ (begin version options events).calls) : c.outcome? find = none := by
  obtain ⟨e, -, rfl⟩ := List.mem_map.1 hc
  rfl

theorem Answered.run (h : Answered find uri σ) (ho : Orderly uri σ) (schedule : List Nat) :
    Answered find uri (σ.run find schedule) := by
  induction schedule generalizing σ with
  | nil => exact h
  | cons i schedule ih => exact ih (h.step ho i) (ho.step i)

theorem Settled.run (h : Settled find uri σ) (ho : Orderly uri σ) {schedule : List Nat}
    (hu : undisturbed find uri σ schedule) : Settled find uri (σ.run find schedule) := by
  induction schedule generalizing σ with
  | nil => exact h
  | cons i schedule ih =>
    simp only [undisturbed, Bool.and_eq_true, Bool.not_eq_true'] at hu
    exact ih (h.step ho hu.1) (ho.step i) hu.2

end Traffic

open Traffic

/-- When all calls are done and no other URI names the file of a document, the current publication
about the document has been sent, unless there was none about it and it is not open. It is the last
one if no event about the document was taken up while another call had seen the document and had not
yet sent what it found. -/
theorem publications_of_interleaving {version : String} {options : List ConfigOption}
    {events : List Event} {schedule : List Nat} {σ : Traffic}
    (hrun : (begin version options events).run find schedule = σ) (hfinished : σ.Finished)
    (hseparate : ∀ e ∈ events, Separate uri e.uri) :
    ((∃ p ∈ σ.sent, p.uri = uri ∧ Current find σ.server p) ∨
      σ.server.document? uri = none ∧ ∀ p ∈ σ.sent, p.uri ≠ uri) ∧
    (undisturbed find uri (begin version options events) schedule →
      ∀ p, last? uri σ.sent = some p → Current find σ.server p) := by
  have ho := orderly_begin version options hseparate
  have hnone : ∀ c ∈ σ.calls, ¬ Promised find uri σ.server c := by
    rintro c hc (⟨rfl, -⟩ | ⟨p, hp, -⟩)
    · cases hfinished _ hc
    · rw [hfinished _ hc] at hp
      cases hp
  constructor
  · have hbegin : Answered find uri (begin version options events) := by
      refine .inr (.inr ⟨rfl, fun c hc p hp => ?_, fun p hp => by cases hp⟩)
      rw [outcome?_begin hc] at hp
      cases hp
    rcases hrun ▸ hbegin.run ho schedule with ⟨c, hc, hp⟩ | hsent | ⟨htext, -, hsent⟩
    · exact absurd hp (hnone c hc)
    · exact .inl hsent
    · exact .inr ⟨Option.map_eq_none_iff.1 htext, hsent⟩
  · intro hundisturbed
    have hbegin : Settled find uri (begin version options events) := by
      refine ⟨fun c hc p hp => ?_, .inr fun p hp => by cases hp⟩
      rw [outcome?_begin hc] at hp
      cases hp
    rcases (hrun ▸ hbegin.run ho hundisturbed : Settled find uri σ).last with ⟨c, hc, hp⟩ | hlast
    · exact absurd hp (hnone c hc)
    · exact hlast

/-- An analysis that finds a write in a document if it reads a certain content under its path. -/
def findsWrite (snap : Snapshot) : List Located :=
  if snap.overlay.lookup snap.path = some (Utf8.encode "a") then [renameFirst] else []

/-- Two documents are opened, and one of them is closed again. -/
def openedAndClosed : List Event :=
  [.opened "file:///m" "a", .opened "file:///n" "a", .closed "file:///n"]

/-- One call is interrupted by all the others, which overtake one another. -/
def nestedCalls : List Nat := [0, 1, 0, 1, 2, 2, 1, 1, 0, 0]

theorem publications_of_interleaving_nestedCalls :
    ∃ σ p, (begin "" [] openedAndClosed).run findsWrite nestedCalls = σ ∧ σ.Finished ∧
      (∀ e ∈ openedAndClosed, Separate "file:///m" e.uri) ∧
      undisturbed findsWrite "file:///m" (begin "" [] openedAndClosed) nestedCalls ∧
      last? "file:///m" σ.sent = some p ∧ p.diagnostics ≠ [] ∧ Current findsWrite σ.server p := by
  obtain ⟨hm, -, hn⟩ := filePath_samples
  have hread : List.lookup (Utf8.encode "/m")
      [(Utf8.encode "/n", Utf8.encode "a"), (Utf8.encode "/m", Utf8.encode "a")] =
        some (Utf8.encode "a") := by decide
  have hrun : (begin "" [] openedAndClosed).run findsWrite nestedCalls =
      ⟨⟨"", [], "off",
          [("file:///m", ⟨Utf8.encode "/m", Utf8.encode "a", renameFirst.actions (Utf8.encode "a")⟩)]⟩,
        [.finished, .finished, .finished],
        [⟨"file:///n", []⟩, ⟨"file:///n", [renameFirst.render (Utf8.encode "a")]⟩,
          ⟨"file:///m", [renameFirst.render (Utf8.encode "a")]⟩]⟩ := by
    simp [openedAndClosed, nestedCalls, begin, start, Traffic.run, Traffic.step, Call.step,
      Call.following, receive, put, update, remove, hm, hn, Event.uri, snapshot?, document?,
      Overlay.ofDocuments, commit, findsWrite, publication, lookup_cons_eq_ite, hread]
  have hpaths : Utf8.encode "/m" ≠ Utf8.encode "/n" := by decide
  have hseparate : ∀ e ∈ openedAndClosed, Separate "file:///m" e.uri := by
    simp [openedAndClosed, Separate, hm, hn, hpaths, Event.uri]
  have hundisturbed :
      undisturbed findsWrite "file:///m" (begin "" [] openedAndClosed) nestedCalls := by
    simp [openedAndClosed, nestedCalls, undisturbed, overtakes, Call.takesUp, Call.outcome?, begin,
      start, Traffic.step, Call.step, Call.following, receive, put, remove, hm, hn, Event.uri,
      snapshot?, document?, publication, lookup_cons_eq_ite]
  have hcurrent := (publications_of_interleaving hrun (by decide) hseparate).2 hundisturbed _ rfl
  exact ⟨_, _, hrun, by decide, hseparate, hundisturbed, rfl, by simp, hcurrent⟩

/-- Whether all calls are done and the last publication about a document is not current. -/
def EndsOld (find : Snapshot → List Located) (uri : String) (σ : Traffic) : Prop :=
  σ.Finished ∧ ∃ p, last? uri σ.sent = some p ∧ ¬ Current find σ.server p

theorem endsOld_of_write {σ : Traffic} {d : EditorDiagnostic} (hfinished : σ.Finished)
    (hlast : last? uri σ.sent = some ⟨uri, [d]⟩)
    (htext : σ.server.text? uri = none ∨ σ.server.text? uri = some (Utf8.encode "/m", Utf8.encode "b")) :
    EndsOld findsWrite uri σ := by
  refine ⟨hfinished, _, hlast, ?_⟩
  unfold Current
  rcases htext with htext | htext <;> simp only [htext]
  · simp
  · rintro ⟨overlay, hread, heq⟩
    have hb : Utf8.encode "b" ≠ Utf8.encode "a" := by decide
    simp [findsWrite, hread, hb, publication] at heq

/-- A change overtakes the call that has opened the document. -/
def overtakenByChange : Traffic :=
  (begin "" [] [.opened "file:///m" "a", .changed "file:///m" [.whole "b"]]).run findsWrite
    [0, 0, 1, 1, 1, 1, 0, 0]

/-- Closing a document overtakes the call that has opened it. -/
def overtakenByClosing : Traffic :=
  (begin "" [] [.opened "file:///m" "a", .closed "file:///m"]).run findsWrite [0, 0, 1, 1, 0, 0]

/-- Two URIs name one path, and no call is interrupted. -/
def oneAfterTheOther : Traffic :=
  (begin "" [] [.opened "file:///m" "a", .opened "file:///m?1" "a",
    .changed "file:///m" [.whole "b"]]).run findsWrite [0, 0, 0, 0, 1, 1, 1, 1, 2, 2, 2, 2]

/-- The last publication about a document is an old one if a call is overtaken, or if an analysis of
the document reads another one. -/
theorem old_publication_last :
    EndsOld findsWrite "file:///m" overtakenByChange ∧
      EndsOld findsWrite "file:///m" overtakenByClosing ∧
      EndsOld findsWrite "file:///m" oneAfterTheOther := by
  obtain ⟨hm, hm', -⟩ := filePath_samples
  have hne : Utf8.encode "b" ≠ Utf8.encode "a" := by decide
  have hchange : overtakenByChange =
      ⟨⟨"", [], "off", [("file:///m", ⟨Utf8.encode "/m", Utf8.encode "b", []⟩)]⟩, [.finished, .finished],
        [⟨"file:///m", []⟩, ⟨"file:///m", [renameFirst.render (Utf8.encode "a")]⟩]⟩ := by
    simp [overtakenByChange, begin, start, Traffic.run, Traffic.step, Call.step, Call.following,
      receive, put, update, hm, Event.uri, snapshot?, document?, Overlay.ofDocuments, commit,
      Change.apply, findsWrite, publication, hne]
  have hclosing : overtakenByClosing = ⟨⟨"", [], "off", []⟩, [.finished, .finished],
      [⟨"file:///m", []⟩, ⟨"file:///m", [renameFirst.render (Utf8.encode "a")]⟩]⟩ := by
    simp [overtakenByClosing, begin, start, Traffic.run, Traffic.step, Call.step, Call.following,
      receive, put, remove, hm, Event.uri, snapshot?, document?, Overlay.ofDocuments, commit,
      findsWrite, publication]
  have hshared : ∃ docs new, oneAfterTheOther =
      ⟨⟨"", [], "off", ("file:///m", ⟨Utf8.encode "/m", Utf8.encode "b", new⟩) :: docs⟩,
        [.finished, .finished, .finished],
        [⟨"file:///m", [renameFirst.render (Utf8.encode "a")]⟩,
          ⟨"file:///m?1", [renameFirst.render (Utf8.encode "a")]⟩,
          ⟨"file:///m", [renameFirst.render (Utf8.encode "b")]⟩]⟩ := by
    simp [oneAfterTheOther, begin, start, Traffic.run, Traffic.step, Call.step, Call.following,
      receive, put, update, hm, hm', Event.uri, snapshot?, document?, Overlay.ofDocuments, commit,
      Change.apply, findsWrite, publication, lookup_cons_eq_ite]
  obtain ⟨docs, new, hshared⟩ := hshared
  rw [hchange, hclosing, hshared]
  exact ⟨endsOld_of_write (by decide) rfl (.inr rfl), endsOld_of_write (by decide) rfl (.inl rfl),
    endsOld_of_write (by simp [Finished]) rfl (.inr rfl)⟩

end Server

end AssignOnce
