import AssignOnce.Proofs.Editor.Run
import Mathlib.Data.List.Induction

/-!
# Where actions come from

The actions of a document are kept until the next analysis of it that succeeds, also when the
document changes and the analysis of the change fails. So the actions that an editor is given come
from the last analysis of the document that succeeded, and are those for its present content if that
analysis answered the last event about the document (`Server.actions_of_last_analysis`). Otherwise
they may be stale (`Server.stale_actions`).

An analysis reads the content of the document from the contents of all open documents by its path.
It reads another content if another open document has the same path.
-/

namespace AssignOnce

namespace Overlay

theorem mem_ofDocuments {docs : List Document} {p : Bytes × Bytes} :
    p ∈ ofDocuments docs ↔ ∃ d ∈ docs, p = (d.path, d.content) := by
  have hfold (overlay : Overlay) :
      p ∈ docs.foldl (fun overlay d => (d.path, d.content) :: overlay) overlay ↔
        p ∈ overlay ∨ ∃ d ∈ docs, p = (d.path, d.content) := by
    induction docs generalizing overlay with
    | nil => simp
    | cons d docs ih =>
      rw [List.foldl_cons, ih]
      simp only [List.mem_cons, exists_eq_or_imp]
      tauto
  exact (hfold []).trans (or_iff_right List.not_mem_nil)

/-- A path that only one content is given for is found with it. -/
theorem lookup_of_unique {overlay : Overlay} {path content : Bytes}
    (hmem : (path, content) ∈ overlay) (hunique : ∀ c, (path, c) ∈ overlay → c = content) :
    overlay.lookup path = some content := by
  cases h : overlay.lookup path with
  | none =>
    have := List.lookup_eq_none_iff.1 h _ hmem
    simp at this
  | some c =>
    obtain ⟨front, back, rfl, -⟩ := List.lookup_eq_some_iff.1 h
    rw [hunique c (by simp)]

end Overlay

namespace Server

variable {s : Server} {uri : String}

/-- An event leaves the actions of a document as they are, unless it opens the document. -/
theorem actions_apply {e : Event} {doc? : Option Document} {d : Document}
    (h : e.apply doc? = some d) :
    d.actions = [] ∨ ∃ d₀, doc? = some d₀ ∧ d.actions = d₀.actions := by
  cases e with
  | opened u text =>
    simp only [Event.apply] at h
    cases hp : Uri.filePath u with
    | ok path =>
      rw [hp] at h
      cases h
      exact .inl rfl
    | error err =>
      rw [hp] at h
      exact .inr ⟨d, h, rfl⟩
  | changed u changes =>
    obtain ⟨d₀, hd, rfl⟩ := Option.map_eq_some_iff.1 h
    exact .inr ⟨d₀, hd, rfl⟩
  | saved u text? =>
    cases text? with
    | none => exact .inr ⟨d, h, rfl⟩
    | some text =>
      obtain ⟨d₀, hd, rfl⟩ := Option.map_eq_some_iff.1 h
      exact .inr ⟨d₀, hd, rfl⟩
  | closed u => cases h

/-- The analysis of a step is of a snapshot of the document that the event has left. -/
theorem findings?_eq_some {t : Step} {snap : Snapshot} {found : List Located}
    (h : s.findings? t uri = some (snap, found)) :
    ∃ d, t.event.applyAt uri (s.document? uri) = some d ∧ snap.content = d.content ∧
      (snap.path, snap.content) ∈ snap.overlay := by
  unfold findings? at h
  cases hr : s.receive t.event with
  | error err => rw [hr] at h; cases h
  | ok s' =>
    rw [hr] at h
    simp only at h
    split at h
    · obtain ⟨snap', hs, hfound⟩ := Option.bind_eq_some_iff.1 h
      obtain ⟨found', -, hpair⟩ := Option.map_eq_some_iff.1 hfound
      cases hpair
      obtain ⟨d, hd, rfl⟩ := snapshot?_eq_some hs
      refine ⟨d, (document?_receive hr).symm.trans hd, rfl, Overlay.mem_ofDocuments.2 ⟨d, ?_, rfl⟩⟩
      obtain ⟨front, back, hdocs, -⟩ := List.lookup_eq_some_iff.1 hd
      rw [hdocs]
      simp
    · cases h

/-- The last analysis of a document in a run that succeeded: the step `t` after the steps `before`
has found something, and no step of the rest has. -/
structure LastAnalysis (s : Server) (uri : String) (before : List Step) (t : Step)
    (rest : List Step) (snap : Snapshot) (found : List Located) : Prop where
  succeeded : (s.run before).findings? t uri = some (snap, found)
  last : ∀ mid t' tail, rest = mid ++ t' :: tail →
    (s.run (before ++ t :: mid)).findings? t' uri = none

theorem LastAnalysis.concat {before rest : List Step} {t t' : Step} {snap : Snapshot}
    {found : List Located} (h : LastAnalysis s uri before t rest snap found)
    (hnone : (s.run (before ++ t :: rest)).findings? t' uri = none) :
    LastAnalysis s uri before t (rest ++ [t']) snap found := by
  refine ⟨h.succeeded, ?_⟩
  intro mid u tail heq
  rcases List.eq_nil_or_concat tail with rfl | ⟨tail, v, rfl⟩
  · obtain ⟨rfl, hu⟩ := List.append_inj' heq rfl
    cases hu
    exact hnone
  · rw [List.concat_eq_append, ← List.cons_append, ← List.append_assoc] at heq
    exact h.last mid u tail (List.append_inj' heq rfl).1

/-- The actions of a document come from the last analysis of it that succeeded, and its content is
the one analysed unless an event about the document has come since. -/
theorem actions_run (s : Server) (hs : s.documents = []) (steps : List Step) {d : Document}
    (hd : (s.run steps).document? uri = some d) :
    d.actions = [] ∨ ∃ before t rest snap found, steps = before ++ t :: rest ∧
      LastAnalysis s uri before t rest snap found ∧
      d.actions = found.flatMap (·.actions snap.content) ∧
      ((∀ t' ∈ rest, uri ≠ t'.event.uri) → d.content = snap.content) := by
  induction steps using List.reverseRecOn generalizing d with
  | nil =>
    have hnone : s.document? uri = none := by simp [document?, hs]
    rw [run_nil, hnone] at hd
    cases hd
  | append_singleton steps t ih =>
    rw [run_concat, document?_after] at hd
    obtain ⟨d₁, hd₁, hd⟩ := Option.map_eq_some_iff.1 hd
    cases hf : (s.run steps).findings? t uri with
    | some result =>
      obtain ⟨snap, found⟩ := result
      obtain ⟨d₂, hd₂, hcontent, -⟩ := findings?_eq_some hf
      obtain rfl : d₂ = d₁ := Option.some.inj (hd₂.symm.trans hd₁)
      simp only [hf] at hd
      subst hd
      have hlast : LastAnalysis s uri steps t [] snap found :=
        ⟨hf, fun mid t' tail h => by simp at h⟩
      exact .inr ⟨steps, t, [], snap, found, rfl, hlast, by rw [hcontent]; rfl,
        fun _ => hcontent.symm⟩
    | none =>
      simp only [hf] at hd
      subst hd
      by_cases hu : uri = t.event.uri
      · rw [Event.applyAt, if_pos hu] at hd₁
        rcases actions_apply hd₁ with hnil | ⟨d₀, hd₀, hsame⟩
        · exact .inl hnil
        · rw [hsame]
          rcases ih hd₀ with hnil | ⟨before, t₀, rest, snap, found, rfl, hlast, hact, -⟩
          · exact .inl hnil
          · refine .inr ⟨before, t₀, rest ++ [t], snap, found, by simp, hlast.concat hf, hact, ?_⟩
            intro hother
            exact absurd hu (hother t (by simp))
      · rw [Event.applyAt, if_neg hu] at hd₁
        rcases ih hd₁ with hnil | ⟨before, t₀, rest, snap, found, rfl, hlast, hact, hcontent⟩
        · exact .inl hnil
        · refine .inr ⟨before, t₀, rest ++ [t], snap, found, by simp, hlast.concat hf, hact, ?_⟩
          intro hother
          exact hcontent fun t' ht' => hother t' (List.mem_append_left _ ht')

/-- Every action that an editor is given was made for findings of the last analysis of the document
that succeeded. That analysis was of the present content, unless an event about the document has
come since, the analysis of which has then failed. It has read that content, unless another open
document with the same path has another one. -/
theorem actions_of_last_analysis {version : String} {options : List ConfigOption}
    {steps : List Step} {uri : String} {range : Range} {actions : List Action} {a : Action}
    (h : ((start version options).run steps).actionsIn uri range = some actions)
    (ha : a ∈ actions) :
    ∃ before t rest snap found, steps = before ++ t :: rest ∧
      LastAnalysis (start version options) uri before t rest snap found ∧
      a ∈ found.flatMap (·.actions snap.content) ∧
      ((∀ t' ∈ rest, uri ≠ t'.event.uri) →
        ((start version options).run steps).content? uri = some snap.content) ∧
      ((∀ c, (snap.path, c) ∈ snap.overlay → c = snap.content) →
        snap.overlay.lookup snap.path = some snap.content) := by
  obtain ⟨d, hd, rfl⟩ := Option.map_eq_some_iff.1 h
  have ha : a ∈ d.actions := List.mem_of_mem_filter ha
  rcases actions_run (start version options) rfl steps hd with
    hnil | ⟨before, t, rest, snap, found, hsteps, hlast, hact, hcontent⟩
  · rw [hnil] at ha
    cases ha
  · refine ⟨before, t, rest, snap, found, hsteps, hlast, hact ▸ ha, ?_, ?_⟩
    · intro hother
      rw [content?, hd, Option.map_some, hcontent hother]
    · intro hunique
      obtain ⟨-, -, -, hmem⟩ := findings?_eq_some hlast.succeeded
      exact Overlay.lookup_of_unique hmem hunique

/-- A finding at the first character of a text, with a fix that renames it. -/
def renameFirst : Located :=
  { diagnostic := ⟨⟨1, 2⟩, "RO0001", "Reassignment of variable 'a' (RO0001)", []⟩
    start := 0
    stop := 1
    fixes := [("Declare new variable", [⟨0, 1, "a1"⟩])] }

/-- An event with an analysis that gives the same result for every snapshot. -/
def answered (e : Event) (result : Option (List Located)) : Step :=
  ⟨e, fun _ _ => result⟩

/-- A document is opened and analysed, then it is changed and the analysis fails. -/
def failedAnalysis : List Step :=
  [answered (.opened "file:///m.go" "a") (some [renameFirst]),
    answered (.changed "file:///m.go" [.whole "b"]) none]

theorem after_answered_none {e : Event} {s' : Server} (h : s.receive e = .ok s') :
    s.after (answered e none) = s' := by
  have hpublish (u : String) : s'.publishWith (fun _ => none) u = (s', []) := by
    unfold publishWith
    split <;> rfl
  unfold after handle answered
  rw [h]
  cases e <;> simp [respond, hpublish]

theorem findings?_answered_none (e : Event) : s.findings? (answered e none) uri = none := by
  unfold findings? answered
  cases s.receive e with
  | error err => rfl
  | ok s' => simp

/-- If two documents share a path, the contents by path for an analysis of the first one begin with
the content of the second one. -/
theorem overlay_of_sharedPath {u v : String} {path : Bytes} (huv : u ≠ v)
    (hu : Uri.filePath u = .ok path) (hv : Uri.filePath v = .ok path) :
    ((start "" []).run [answered (.opened u "a") none, answered (.opened v "a") none,
        answered (.changed u [.whole "b"]) none]).snapshot? u =
      some ⟨u, path, Utf8.encode "b", [(path, Utf8.encode "a"), (path, Utf8.encode "b")]⟩ := by
  have hfirst : (start "" []).receive (.opened u "a") =
      .ok ⟨"", [], "off", [(u, ⟨path, Utf8.encode "a", []⟩)]⟩ := by
    simp [receive, hu, put, start]
  have hsecond : (⟨"", [], "off", [(u, ⟨path, Utf8.encode "a", []⟩)]⟩ : Server).receive
      (.opened v "a") = .ok ⟨"", [], "off",
        [(u, ⟨path, Utf8.encode "a", []⟩), (v, ⟨path, Utf8.encode "a", []⟩)]⟩ := by
    simp [receive, hv, put, huv]
  have hthird : (⟨"", [], "off", [(u, ⟨path, Utf8.encode "a", []⟩),
      (v, ⟨path, Utf8.encode "a", []⟩)]⟩ : Server).receive (.changed u [.whole "b"]) =
        .ok ⟨"", [], "off",
          [(u, ⟨path, Utf8.encode "b", []⟩), (v, ⟨path, Utf8.encode "a", []⟩)]⟩ := by
    simp [receive, document?, update, Change.apply, huv.symm]
  simp only [run, List.foldl_cons, List.foldl_nil, after_answered_none hfirst,
    after_answered_none hsecond, after_answered_none hthird]
  simp [snapshot?, document?, Overlay.ofDocuments]

/-- After a failed analysis the editor is given an action for the content before the change, the
only one that was analysed. And an analysis of one of two documents that share a path reads the
content of the other one. -/
theorem stale_actions :
    (((start "" []).run failedAnalysis).content? "file:///m.go" = some (Utf8.encode "b") ∧
      ((start "" []).run failedAnalysis).actionsIn "file:///m.go" ⟨⟨0, 0⟩, ⟨0, 1⟩⟩ =
        some (renameFirst.actions (Utf8.encode "a")) ∧
      ∀ before t rest snap found, failedAnalysis = before ++ t :: rest →
        ((start "" []).run before).findings? t "file:///m.go" = some (snap, found) →
        snap.content = Utf8.encode "a") ∧
    ∃ path, ((start "" []).run [answered (.opened "file:///m.go" "a") none,
        answered (.opened "file:///m.go?1" "a") none,
        answered (.changed "file:///m.go" [.whole "b"]) none]).snapshot? "file:///m.go" =
      some ⟨"file:///m.go", path, Utf8.encode "b",
        [(path, Utf8.encode "a"), (path, Utf8.encode "b")]⟩ := by
  refine ⟨⟨by decide +kernel, by decide +kernel, ?_⟩, ?_⟩
  · intro before t rest snap found hsteps hfound
    match before with
    | [] =>
      obtain ⟨rfl, -⟩ := List.cons.inj hsteps
      have hcontent : ((start "" []).findings?
          (answered (.opened "file:///m.go" "a") (some [renameFirst])) "file:///m.go").map
          (·.1.content) = some (Utf8.encode "a") := by decide +kernel
      rw [run_nil] at hfound
      rw [hfound] at hcontent
      exact Option.some.inj hcontent
    | [_] =>
      obtain ⟨rfl, htail⟩ := List.cons.inj hsteps
      obtain ⟨rfl, -⟩ := List.cons.inj htail
      rw [findings?_answered_none] at hfound
      cases hfound
    | _ :: _ :: tail => simp [failedAnalysis] at hsteps
  · exact ⟨Utf8.encode "/m.go", overlay_of_sharedPath (by decide) (by decide +kernel)
      (by decide +kernel)⟩

/-- While no event has come since, the action is one for the present content. -/
theorem actions_of_last_analysis_opened :
    ∃ before t rest snap found,
      [answered (.opened "file:///m.go" "a") (some [renameFirst])] = before ++ t :: rest ∧
      LastAnalysis (start "" []) "file:///m.go" before t rest snap found ∧
      ((∀ t' ∈ rest, "file:///m.go" ≠ t'.event.uri) →
        ((start "" []).run [answered (.opened "file:///m.go" "a") (some [renameFirst])]).content?
          "file:///m.go" = some snap.content) := by
  have hactions : ((start "" []).run
      [answered (.opened "file:///m.go" "a") (some [renameFirst])]).actionsIn "file:///m.go"
        ⟨⟨0, 0⟩, ⟨0, 1⟩⟩ = some (renameFirst.actions (Utf8.encode "a")) := by decide +kernel
  obtain ⟨before, t, rest, snap, found, hsteps, hlast, -, hcontent, -⟩ :=
    actions_of_last_analysis hactions List.mem_cons_self
  exact ⟨before, t, rest, snap, found, hsteps, hlast, hcontent⟩

end Server

end AssignOnce
