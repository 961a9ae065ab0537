import AssignOnce.Proofs.Editor.Encoding
import AssignOnce.Proofs.Editor.Run
import Mathlib.Data.List.Induction

/-!
# Documents follow the editor

An editor holds a document in UTF-16 code units and tells the server about its changes, the server
holds it in bytes. `Server.editorText` is what the editor has after some events: it applies the
changes one after the other, each at the units that its range names. The theorem is
`Server.content_follows_editor`: after every run a document of the server is the same text as that of
the editor, and every position, of that content or of one in the middle of a change, has an offset
inside the content. Ranges whose start lies behind their end are not excluded.
-/

namespace AssignOnce

/-! ## Changes -/

namespace Change

/-- The text of the editor after a change. -/
def applyUnits (text : Units) : Change → Units
  | .whole new => Utf16.encode new
  | .part range new =>
    text.take (Utf16.offsetAt text range.start) ++ Utf16.encode new ++
      text.drop (Utf16.offsetAt text range.stop)

/-- The characters of a text after a change. -/
def applyChars (cs : List Char) : Change → List Char
  | .whole new => new.toList
  | .part range new => EditorText.replace cs range new.toList

theorem apply_encode (cs : List Char) (c : Change) :
    c.apply (Encoding.bytes.encode cs) = Encoding.bytes.encode (c.applyChars cs) := by
  cases c with
  | whole new => rfl
  | part range new => exact Encoding.bytes.splice_encode cs range new.toList

theorem applyUnits_encode (cs : List Char) (c : Change) :
    c.applyUnits (Encoding.units.encode cs) = Encoding.units.encode (c.applyChars cs) := by
  cases c with
  | whole new => rfl
  | part range new => exact Encoding.units.splice_encode cs range new.toList

/-- Changes that act on characters one by one act on characters together. -/
theorem foldl_encode {α : Type} [DecidableEq α] (e : Encoding α)
    {change : List α → Change → List α}
    (hchange : ∀ cs c, change (e.encode cs) c = e.encode (c.applyChars cs)) (cs : List Char)
    (changes : List Change) :
    changes.foldl change (e.encode cs) = e.encode (changes.foldl applyChars cs) := by
  induction changes generalizing cs with
  | nil => rfl
  | cons c changes ih => rw [List.foldl_cons, hchange, ih, List.foldl_cons]

end Change

/-! ## The text of the editor -/

namespace Server

/-- What an event makes of the text of a document in the editor. A document that is not open has
none; one whose URI names no file is not opened. -/
def Event.mirror (uri : String) (text? : Option Units) (e : Event) : Option Units :=
  if uri = e.uri then
    match e with
    | .opened _ new =>
      match Uri.filePath uri with
      | .ok _ => some (Utf16.encode new)
      | .error _ => text?
    | .changed _ changes => text?.map (changes.foldl Change.applyUnits)
    | .saved _ (some new) => text?.map fun _ => Utf16.encode new
    | .saved _ none => text?
    | .closed _ => none
  else text?

/-- The text of a document in the editor after some events. -/
def editorText (uri : String) (events : List Event) : Option Units :=
  events.foldl (Event.mirror uri) none

/-- Whether a content and some units are the same text, or both missing. -/
def SameText (content? : Option Bytes) (units? : Option Units) : Prop :=
  ∃ text? : Option String, content? = text?.map Utf8.encode ∧ units? = text?.map Utf16.encode

variable {s : Server} {uri : String}

theorem SameText.encode (text : String) :
    SameText (some (Utf8.encode text)) (some (Utf16.encode text)) :=
  ⟨some text, rfl, rfl⟩

theorem SameText.changed {content? : Option Bytes} {units? : Option Units}
    (h : SameText content? units?) (changes : List Change) :
    SameText (content?.map (changes.foldl Change.apply))
      (units?.map (changes.foldl Change.applyUnits)) := by
  obtain ⟨text?, rfl, rfl⟩ := h
  cases text? with
  | none => exact ⟨none, rfl, rfl⟩
  | some text =>
    have hbytes := Change.foldl_encode .bytes Change.apply_encode text.toList changes
    have hunits := Change.foldl_encode .units Change.applyUnits_encode text.toList changes
    refine ⟨some (String.ofList (changes.foldl Change.applyChars text.toList)), ?_, ?_⟩
    · rw [Option.map_some, Option.map_some, Option.map_some, Utf8.encode_ofList]
      exact congrArg some hbytes
    · rw [Option.map_some, Option.map_some, Option.map_some, Utf16.encode_ofList]
      exact congrArg some hunits

theorem SameText.replaced {content? : Option Bytes} {units? : Option Units}
    (h : SameText content? units?) (new : String) :
    SameText (content?.map fun _ => Utf8.encode new) (units?.map fun _ => Utf16.encode new) := by
  obtain ⟨text?, rfl, rfl⟩ := h
  refine ⟨text?.map fun _ => new, ?_, ?_⟩ <;> cases text? <;> rfl

/-- An event keeps the server and the editor at the same text. -/
theorem SameText.after {units? : Option Units} (h : SameText (s.content? uri) units?) (t : Step) :
    SameText ((s.after t).content? uri) (t.event.mirror uri units?) := by
  rw [content?_after]
  unfold Event.applyAt Event.mirror
  by_cases hu : uri = t.event.uri
  · rw [if_pos hu, if_pos hu]
    generalize t.event = e at hu
    cases e with
    | opened u new =>
      obtain rfl : uri = u := hu
      simp only [Event.apply]
      cases Uri.filePath uri with
      | ok path => exact .encode new
      | error err => exact h
    | changed u changes =>
      have := h.changed changes
      simpa [Event.apply, content?, Function.comp_def] using this
    | saved u new? =>
      cases new? with
      | none => exact h
      | some new =>
        have := h.replaced new
        simpa [Event.apply, content?, Function.comp_def] using this
    | closed u => exact ⟨none, rfl, rfl⟩
  · rw [if_neg hu, if_neg hu]
    exact h

theorem sameText_run (version : String) (options : List ConfigOption) (steps : List Step)
    (uri : String) :
    SameText (((start version options).run steps).content? uri)
      (editorText uri (steps.map (·.event))) := by
  induction steps using List.reverseRecOn with
  | nil => exact ⟨none, rfl, rfl⟩
  | append_singleton steps t ih =>
    rw [run_concat, editorText, List.map_append, List.foldl_append]
    exact ih.after t

/-- After every run the content of a document is the text that the editor has, and no position
leads outside the content, also between two changes of one event. -/
theorem content_follows_editor (version : String) (options : List ConfigOption)
    (steps : List Step) (uri : String) :
    SameText (((start version options).run steps).content? uri)
        (editorText uri (steps.map (·.event))) ∧
      ∀ content ∈ ((start version options).run steps).content? uri,
        ∀ (changes : List Change) (p : Position),
          EditorText.offsetAt (changes.foldl Change.apply content) p ≤
            (changes.foldl Change.apply content).length := by
  have h := sameText_run version options steps uri
  refine ⟨h, ?_⟩
  intro content hcontent changes p
  obtain ⟨text?, hbytes, -⟩ := h
  rw [hbytes] at hcontent
  obtain ⟨text, -, rfl⟩ := Option.map_eq_some_iff.1 hcontent
  have hchanged := Change.foldl_encode .bytes Change.apply_encode text.toList changes
  rw [show Utf8.encode text = Encoding.bytes.encode text.toList from rfl, hchanged]
  exact Encoding.bytes.offsetAt_encode_le _ p

end Server

end AssignOnce
