import AssignOnce.Proofs.Editor.Actions

/-!
# Which content an analysis reads

Documents are held by URI, but an analysis reads them by path, and several URIs name one path. An
analysis of a document is sure to read the content of that document, in whatever order the documents
are gone through, exactly if no open document with the same path has another content
(`Server.readsOwn_iff`). The invariant of all runs (`Server.Consistent`) is that every URI has one
document and that the path of a document is the one its URI names.
-/

namespace AssignOnce

theorem Overlay.ofDocuments_concat (docs : List Document) (d : Document) :
    ofDocuments (docs ++ [d]) = (d.path, d.content) :: ofDocuments docs := by
  simp [ofDocuments]

namespace Server

/-! ## What holds of the documents after every run -/

/-- Every URI has at most one document, and a document has the path that its URI names. -/
structure Consistent (s : Server) : Prop where
  nodup : (s.documents.map (·.1)).Nodup
  path {uri : String} {d : Document} : (uri, d) ∈ s.documents → Uri.filePath uri = .ok d.path

theorem consistent_start (version : String) (options : List ConfigOption) :
    (start version options).Consistent :=
  ⟨.nil, fun h => by cases h⟩

namespace Consistent

variable {s : Server} (h : s.Consistent)
include h

/-- The documents of a URI are what is found under it. -/
theorem mem_documents_iff {uri : String} {d : Document} :
    (uri, d) ∈ s.documents ↔ s.document? uri = some d := by
  rw [document?, List.lookup_eq_some_iff]
  constructor
  · intro hmem
    obtain ⟨front, back, hdocs⟩ := List.append_of_mem hmem
    refine ⟨front, back, hdocs, fun p hp => ?_⟩
    have hnodup := h.nodup
    rw [hdocs, List.map_append, List.map_cons] at hnodup
    have hne := (List.nodup_append.1 hnodup).2.2 p.1 (List.mem_map_of_mem hp) uri (by simp)
    simpa using hne.symm
  · rintro ⟨front, back, hdocs, -⟩
    rw [hdocs]
    simp

theorem filter_ne (uri : String) :
    ((s.documents.filter fun (u, _) => u != uri).map (·.1)).Nodup ∧
      uri ∉ (s.documents.filter fun (u, _) => u != uri).map (·.1) :=
  ⟨h.nodup.sublist (List.filter_sublist.map _), by simp⟩

theorem remove (uri : String) : (s.remove uri).Consistent :=
  ⟨(h.filter_ne uri).1, fun hmem => h.path (List.mem_of_mem_filter hmem)⟩

theorem put {uri : String} {d : Document} (hpath : Uri.filePath uri = .ok d.path) :
    (s.put uri d).Consistent := by
  obtain ⟨hnodup, hnot⟩ := h.filter_ne uri
  refine ⟨?_, fun {u e} hmem => ?_⟩
  · unfold Server.put
    rw [List.map_append, List.nodup_append]
    refine ⟨hnodup, List.pairwise_singleton _ _, fun u hu v hv huv => ?_⟩
    rw [huv, List.mem_singleton.1 hv] at hu
    exact hnot hu
  · rcases List.mem_append.1 hmem with hmem | hmem
    · exact h.path (List.mem_of_mem_filter hmem)
    · cases List.mem_singleton.1 hmem
      exact hpath

theorem update {uri : String} {change : Document → Document}
    (hchange : ∀ d, (change d).path = d.path) : (s.update uri change).Consistent := by
  refine ⟨?_, fun {u e} hmem => ?_⟩
  · have hkeys : (s.update uri change).documents.map (·.1) = s.documents.map (·.1) := by
      simp [Server.update, Function.comp_def]
    rw [hkeys]
    exact h.nodup
  · obtain ⟨⟨v, d⟩, hd, heq⟩ := List.mem_map.1 hmem
    cases heq
    rw [h.path hd]
    split
    · rw [hchange]
    · rfl

theorem receive {e : Event} {s' : Server} (hr : s.receive e = .ok s') : s'.Consistent := by
  cases e with
  | opened uri text =>
    simp only [Server.receive] at hr
    split at hr
    · rename_i path hpath
      cases hr
      exact h.put hpath
    · cases hr
  | changed uri changes =>
    simp only [Server.receive] at hr
    split at hr
    · cases hr
      exact h.update fun _ => rfl
    · cases hr
  | saved uri text? =>
    cases text? with
    | none => cases hr; exact h
    | some text => cases hr; exact h.update fun _ => rfl
  | closed uri => cases hr; exact h.remove uri

theorem commit (snap : Snapshot) (found : List Located) : (s.commit snap found).Consistent := by
  unfold Server.commit
  split
  · split
    · exact h.update fun _ => rfl
    · exact h
  · exact h

theorem publishWith (analysis : Snapshot → Option (List Located)) (uri : String) :
    (s.publishWith analysis uri).1.Consistent := by
  unfold Server.publishWith
  split
  · exact h
  · split
    · exact h
    · exact h.commit _ _

theorem after (t : Step) : (s.after t).Consistent := by
  unfold Server.after handle
  cases hr : s.receive t.event with
  | error err => exact h
  | ok s' =>
    have h' := h.receive hr
    cases t.event with
    | opened uri text => exact h'.publishWith _ _
    | changed uri changes => exact h'.publishWith _ _
    | saved uri text? => exact h'.publishWith _ _
    | closed uri => exact h'

theorem run (steps : List Step) : (s.run steps).Consistent := by
  induction steps generalizing s with
  | nil => exact h
  | cons t steps ih => exact ih (h.after t)

end Consistent

/-! ## The content read -/

/-- The server with its documents in another order. -/
def inOrder (s : Server) (order : List (String × Document)) : Server :=
  { s with documents := order }

/-- Whether an analysis of a document reads a content under the path of the document, and its
results are taken to be about that content. -/
def Reads (s : Server) (uri : String) (content : Bytes) : Prop :=
  ∃ snap, s.snapshot? uri = some snap ∧ snap.content = content ∧
    snap.overlay.lookup snap.path = some content

variable {s : Server} {uri : String} {d : Document}

theorem Consistent.inOrder (h : s.Consistent) {order : List (String × Document)}
    (hp : order.Perm s.documents) : (s.inOrder order).Consistent :=
  ⟨(hp.map _).nodup_iff.2 h.nodup, fun hmem => h.path (hp.mem_iff.1 hmem)⟩

/-- In whatever order the documents are held, the same ones are found. -/
theorem Consistent.document?_inOrder (h : s.Consistent) {order : List (String × Document)}
    (hp : order.Perm s.documents) (uri : String) :
    (s.inOrder order).document? uri = s.document? uri := by
  ext d
  rw [← (h.inOrder hp).mem_documents_iff, ← h.mem_documents_iff]
  exact hp.mem_iff

/-- A document is read if it is the last one with its path. -/
theorem reads_iff (hd : s.document? uri = some d) {content : Bytes} : s.Reads uri content ↔
    d.content = content ∧
      (Overlay.ofDocuments (s.documents.map (·.2))).lookup d.path = some content := by
  simp [Reads, snapshot?, hd]

/-- Only a document with the same path can be read instead of a document. -/
theorem Consistent.reads_of_unique (h : s.Consistent) (hd : s.document? uri = some d)
    (hsame : ∀ uri' d', s.document? uri' = some d' → d'.path = d.path → d'.content = d.content) :
    s.Reads uri d.content := by
  refine (reads_iff hd).2 ⟨rfl, Overlay.lookup_of_unique ?_ fun c hc => ?_⟩
  · exact Overlay.mem_ofDocuments.2 ⟨d, List.mem_map_of_mem (h.mem_documents_iff.2 hd), rfl⟩
  · obtain ⟨d', hd', heq⟩ := Overlay.mem_ofDocuments.1 hc
    obtain ⟨⟨uri', _⟩, hmem, rfl⟩ := List.mem_map.1 hd'
    obtain ⟨hpath, rfl⟩ := Prod.mk.inj heq
    exact hsame uri' _ (h.mem_documents_iff.1 hmem) hpath.symm

/-- A document that comes last is read instead of every document with the same path. -/
theorem Consistent.exists_order (h : s.Consistent) {uri' : String} {d' : Document}
    (hd' : s.document? uri' = some d') :
    ∃ order : List (String × Document), order.Perm s.documents ∧
      (Overlay.ofDocuments (order.map (·.2))).lookup d'.path = some d'.content := by
  have hmem := h.mem_documents_iff.2 hd'
  refine ⟨s.documents.erase (uri', d') ++ [(uri', d')], ?_, ?_⟩
  · exact (List.perm_append_singleton _ _).trans (List.perm_cons_erase hmem).symm
  · rw [List.map_append, List.map_singleton, Overlay.ofDocuments_concat]
    simp

/-- After every run, an analysis of an open document reads the content of that document, in whatever
order the documents are held, if and only if no open document whose URI names the same path has
another content. -/
theorem readsOwn_iff {version : String} {options : List ConfigOption} {steps : List Step}
    {uri : String} {d : Document}
    (hd : ((start version options).run steps).document? uri = some d) :
    (∀ order, order.Perm ((start version options).run steps).documents →
      (((start version options).run steps).inOrder order).Reads uri d.content) ↔
    ∀ uri' d', ((start version options).run steps).document? uri' = some d' →
      Uri.filePath uri' = Uri.filePath uri → d'.content = d.content := by
  have h := (consistent_start version options).run steps
  generalize (start version options).run steps = s at hd h
  have hpath := h.path (h.mem_documents_iff.2 hd)
  constructor
  · intro hreads uri' d' hd' hsame
    obtain ⟨order, hperm, hlast⟩ := h.exists_order hd'
    obtain ⟨-, hown⟩ := (reads_iff ((h.document?_inOrder hperm uri).trans hd)).1
      (hreads order hperm)
    rw [hpath, h.path (h.mem_documents_iff.2 hd')] at hsame
    rw [Except.ok.inj hsame] at hlast
    exact Option.some.inj (hlast.symm.trans hown)
  · intro hsame order hperm
    refine (h.inOrder hperm).reads_of_unique ((h.document?_inOrder hperm uri).trans hd) ?_
    intro uri' d' hd' hpath'
    rw [h.document?_inOrder hperm] at hd'
    exact hsame uri' d' hd' (by rw [hpath, h.path (h.mem_documents_iff.2 hd'), hpath'])

/-- Two URIs name one path. The document of the first one has been changed, but an analysis of it
reads the document of the second one. -/
theorem reads_other_document :
    ((start "" []).run [answered (.opened "file:///m.go" "a") none,
        answered (.opened "file:///m.go?1" "a") none,
        answered (.changed "file:///m.go" [.whole "b"]) none]).content? "file:///m.go" =
      some (Utf8.encode "b") ∧
    ¬ ((start "" []).run [answered (.opened "file:///m.go" "a") none,
        answered (.opened "file:///m.go?1" "a") none,
        answered (.changed "file:///m.go" [.whole "b"]) none]).Reads "file:///m.go"
      (Utf8.encode "b") := by
  have hpath : Uri.filePath "file:///m.go" = .ok (Utf8.encode "/m.go") := by decide +kernel
  have hpath' : Uri.filePath "file:///m.go?1" = .ok (Utf8.encode "/m.go") := by decide +kernel
  have hsnap := overlay_of_sharedPath (by decide) hpath hpath'
  constructor
  · obtain ⟨d, hd, hsnap⟩ := snapshot?_eq_some hsnap
    rw [content?, hd, Option.map_some]
    exact congrArg some (congrArg Snapshot.content hsnap).symm
  · rintro ⟨snap, hsnap', -, hread⟩
    cases hsnap.symm.trans hsnap'
    rw [List.lookup_cons_self] at hread
    exact absurd hread (by decide)

/-- Two URIs with the same path, and one with another path. -/
theorem filePath_samples : Uri.filePath "file:///m" = .ok (Utf8.encode "/m") ∧
    Uri.filePath "file:///m?1" = .ok (Utf8.encode "/m") ∧
    Uri.filePath "file:///n" = .ok (Utf8.encode "/n") := by
  decide +kernel

/-- Three open documents, two of which have the same path and the same content. -/
def threeOpened : Server :=
  (start "" []).run [answered (.opened "file:///m" "a") none,
    answered (.opened "file:///m?1" "a") none, answered (.opened "file:///n" "b") none]

theorem documents_threeOpened : threeOpened.documents =
    [("file:///m", ⟨Utf8.encode "/m", Utf8.encode "a", []⟩),
      ("file:///m?1", ⟨Utf8.encode "/m", Utf8.encode "a", []⟩),
      ("file:///n", ⟨Utf8.encode "/n", Utf8.encode "b", []⟩)] := by
  have hopen {s : Server} {uri text : String} {path : Bytes} (hpath : Uri.filePath uri = .ok path) :
      s.after (answered (.opened uri text) none) = s.put uri ⟨path, Utf8.encode text, []⟩ :=
    after_answered_none (by simp [receive, hpath])
  obtain ⟨hm, hm', hn⟩ := filePath_samples
  simp [threeOpened, run, hopen hm, hopen hm', hopen hn, put, start]

/-- The two documents with one path have the same content, so each of them is read. -/
theorem readsOwn_iff_threeOpened :
    threeOpened.document? "file:///m" = some ⟨Utf8.encode "/m", Utf8.encode "a", []⟩ ∧
    ∀ order, order.Perm threeOpened.documents →
      (threeOpened.inOrder order).Reads "file:///m" (Utf8.encode "a") := by
  have hd : threeOpened.document? "file:///m" = some ⟨Utf8.encode "/m", Utf8.encode "a", []⟩ := by
    rw [document?, documents_threeOpened]
    rfl
  refine ⟨hd, (readsOwn_iff hd).2 fun uri' d' hd' hpath => ?_⟩
  have hconsistent : threeOpened.Consistent := (consistent_start "" []).run _
  have hmem := hconsistent.mem_documents_iff.2 hd'
  have hown := hconsistent.path (hconsistent.mem_documents_iff.2 hd)
  rw [hconsistent.path hmem, hown] at hpath
  rw [documents_threeOpened] at hmem
  simp only [List.mem_cons, Prod.mk.injEq, List.not_mem_nil, or_false] at hmem
  rcases hmem with ⟨-, rfl⟩ | ⟨-, rfl⟩ | ⟨-, rfl⟩
  · rfl
  · rfl
  · exact absurd (Except.ok.inj hpath) (by decide)

end Server

end AssignOnce
