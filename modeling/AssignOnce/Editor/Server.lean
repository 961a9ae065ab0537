import AssignOnce.Check
import AssignOnce.Editor.Position
import AssignOnce.Editor.Uri

/-!
# The editor server

The server keeps the documents that an editor has open. When a document changes it is analysed on
the contents of all open documents, its diagnostics are published, and its fixes are kept as actions
that the editor can ask for. An analysis that fails publishes nothing and leaves the actions alone.

Publishing takes three steps, between which other events may come: a snapshot of the documents
(`Server.snapshot?`), the analysis of the snapshot, and keeping the actions if the document still
has the content of the snapshot (`Server.commit`).
-/

namespace AssignOnce

/-- A diagnostic as an editor shows it. -/
structure EditorDiagnostic where
  range : Range
  severity : Nat
  code : String
  source : String
  message : String
  deriving DecidableEq, Repr

/-- A change of a text in an editor. -/
structure TextEdit where
  range : Range
  text : String
  deriving DecidableEq, Repr

/-- A fix that an editor can offer. -/
structure Action where
  diagnostic : EditorDiagnostic
  title : String
  edits : List TextEdit
  deriving DecidableEq, Repr

namespace Action

/-- The kind of all actions. -/
def kind : String := "quickfix"

end Action

/-- An open document. -/
structure Document where
  path : Bytes
  content : Bytes
  actions : List Action
  deriving DecidableEq, Repr

/-- The contents of open documents by their paths; the first entry for a path counts. -/
abbrev Overlay := List (Bytes × Bytes)

namespace Overlay

/-- The contents of documents, of which later ones hide earlier ones with the same path. -/
def ofDocuments (docs : List Document) : Overlay :=
  docs.foldl (fun overlay d => (d.path, d.content) :: overlay) []

end Overlay

/-- A change of a document in an editor. -/
inductive Change where
  | whole (text : String)
  | part (range : Range) (text : String)
  deriving DecidableEq, Repr

namespace Change

/-- The content after a change. -/
def apply (content : Bytes) : Change → Bytes
  | .whole text => Utf8.encode text
  | .part range text =>
    content.take (EditorText.offsetAt content range.start) ++ Utf8.encode text ++
      content.drop (EditorText.offsetAt content range.stop)

end Change

/-! ## Analysing a document -/

/-- A change of a text between two offsets. -/
structure OffsetEdit where
  start : Nat
  stop : Nat
  text : String
  deriving DecidableEq, Repr

/-- A diagnostic of a document by offsets, with the edits of its fixes. -/
structure Located where
  diagnostic : Diagnostic
  start : Nat
  stop : Nat
  fixes : List (String × List OffsetEdit)
  deriving DecidableEq, Repr

/-- The files around a document, if they can be loaded with the contents of the open documents. -/
abbrev Loader := Overlay → Bytes → Option (Package × List SourceFile)

namespace Located

/-- The file that a position lies in, the position behind its last byte included. -/
def fileAt? (files : List SourceFile) (p : Int) : Option SourceFile :=
  files.find? fun f => f.bounds.start ≤ p && p ≤ f.bounds.stop

/-- The offset of a position in its file. A position in no file has offset 0. -/
def offsetAt (files : List SourceFile) (p : Int) : Nat :=
  match fileAt? files p with
  | some f => f.offset p
  | none => 0

/-- The offset of an end, which is the start if there is none. -/
def stopAt (files : List SourceFile) (start : Int) (stop : Option Int) : Nat :=
  match stop with
  | some p => offsetAt files (if p = 0 then start else p)
  | none => offsetAt files start

/-- An edit by offsets. -/
def edit (files : List SourceFile) (e : Edit) : OffsetEdit :=
  ⟨offsetAt files e.start, stopAt files e.start e.stop, e.text⟩

/-- A diagnostic by offsets, if it starts in the file with a path. -/
def ofDiagnostic? (files : List SourceFile) (path : Bytes) (d : Diagnostic) : Option Located :=
  if (fileAt? files d.span.start).any fun f => f.name == path then
    some
      { diagnostic := d
        start := offsetAt files d.span.start
        stop := stopAt files d.span.start (some d.span.stop)
        fixes := d.fixes.map fun f => (f.title, f.edits.map (edit files)) }
  else none

/-- The diagnostic as an editor shows it in a text. -/
def render (text : Bytes) (l : Located) : EditorDiagnostic where
  range := EditorText.rangeAt text l.start l.stop
  severity := Rule.editorLevel l.diagnostic.category
  code := l.diagnostic.category
  source := toolName
  message := l.diagnostic.message

/-- The actions for a diagnostic in a text. -/
def actions (text : Bytes) (l : Located) : List Action :=
  l.fixes.map fun (title, edits) =>
    { diagnostic := l.render text
      title := title
      edits := edits.map fun e => ⟨EditorText.rangeAt text e.start e.stop, e.text⟩ }

end Located

/-! ## The server -/

/-- What the server holds. -/
structure Server where
  version : String
  options : List ConfigOption
  /-- How much the editor wants to know about the work of the server. -/
  trace : String
  /-- The open documents by their URI. -/
  documents : List (String × Document)

/-- What the server can do, as it tells the editor at the start. -/
structure Greeting where
  name : String
  version : String
  /-- Whether opening and closing documents is of interest. -/
  openClose : Bool
  /-- How changes are sent; 1 stands for the whole text. -/
  changeKind : Nat
  save : Bool
  actionKinds : List String
  deriving DecidableEq, Repr

/-- The diagnostics sent for a document. -/
structure Publication where
  uri : String
  diagnostics : List EditorDiagnostic
  deriving DecidableEq, Repr

namespace Publication

/-- The name of the message that publishes diagnostics. -/
def method : String := "textDocument/publishDiagnostics"

end Publication

/-- Why an event is refused. -/
inductive ServerError where
  | badUri (e : UriError)
  | unknownDocument (uri : String)
  deriving DecidableEq, Repr

namespace ServerError

/-- What is said of a refused event. -/
def message : ServerError → String
  | .badUri e => e.message
  | .unknownDocument uri => "change of unknown document " ++ uri

end ServerError

/-- The documents at the start of an analysis. -/
structure Snapshot where
  uri : String
  path : Bytes
  content : Bytes
  overlay : Overlay
  deriving DecidableEq, Repr

namespace Server

variable (s : Server)

/-- The server before the first event. -/
def start (version : String) (options : List ConfigOption) : Server :=
  ⟨version, options, "off", []⟩

/-- What the server tells the editor at the start. -/
def greeting : Greeting where
  name := toolName
  version := s.version
  openClose := true
  changeKind := 1
  save := true
  actionKinds := [Action.kind]

/-- Changes how much the editor wants to know. The value `messages` stands for `message`. -/
def setTrace (value : String) : Server :=
  { s with trace := if value = "messages" then "message" else value }

/-- An open document. -/
def document? (uri : String) : Option Document :=
  s.documents.lookup uri

/-- Opens a document, or replaces it. -/
def put (uri : String) (d : Document) : Server :=
  { s with documents := (s.documents.filter fun (u, _) => u != uri) ++ [(uri, d)] }

/-- Changes a document if it is open. -/
def update (uri : String) (change : Document → Document) : Server :=
  { s with documents := s.documents.map fun (u, d) => (u, if u == uri then change d else d) }

/-- Closes a document. -/
def remove (uri : String) : Server :=
  { s with documents := s.documents.filter fun (u, _) => u != uri }

/-- The documents as an analysis of one of them sees them. -/
def snapshot? (uri : String) : Option Snapshot :=
  (s.document? uri).map fun d =>
    ⟨uri, d.path, d.content, .ofDocuments (s.documents.map (·.2))⟩

/-- The configuration of an analysis, which reads files from the open documents. -/
def config (overlay : Overlay) : Config :=
  ConfigOption.configure (s.options ++ [.setting (.reader (some fun path => overlay.lookup path))])

/-- What an analysis of a snapshot finds; none if it fails. -/
def analyse (load : Loader) (snap : Snapshot) : Option (List Located) :=
  match load snap.overlay snap.path with
  | none => none
  | some (package, files) =>
    match Pass.check ⟨package, files, none, true⟩ (s.config snap.overlay) with
    | .ok diagnostics =>
      some (diagnostics.flatten.filterMap (Located.ofDiagnostic? files snap.path))
    | .error _ => none

/-- Keeps the actions of an analysis if the document has not changed since its snapshot. -/
def commit (snap : Snapshot) (found : List Located) : Server :=
  match s.document? snap.uri with
  | some d =>
    if d.content = snap.content then
      s.update snap.uri fun d => { d with actions := found.flatMap (·.actions snap.content) }
    else s
  | none => s

/-- What is published about a snapshot. -/
def publication (snap : Snapshot) (found : List Located) : Publication :=
  ⟨snap.uri, found.map (·.render snap.content)⟩

/-- Analyses a document with the given analysis and publishes what it finds. -/
def publishWith (analysis : Snapshot → Option (List Located)) (uri : String) :
    Server × List Publication :=
  match s.snapshot? uri with
  | none => (s, [])
  | some snap =>
    match analysis snap with
    | none => (s, [])
    | some found => (s.commit snap found, [publication snap found])

/-- What an editor tells the server about its documents. -/
inductive Event where
  | opened (uri text : String)
  | changed (uri : String) (changes : List Change)
  | saved (uri : String) (text : Option String)
  | closed (uri : String)
  deriving DecidableEq, Repr

/-- The documents after an event. -/
def receive : Event → Except ServerError Server
  | .opened uri text =>
    match Uri.filePath uri with
    | .ok path => .ok (s.put uri ⟨path, Utf8.encode text, []⟩)
    | .error e => .error (.badUri e)
  | .changed uri changes =>
    match s.document? uri with
    | some _ =>
      .ok (s.update uri fun d => { d with content := changes.foldl Change.apply d.content })
    | none => .error (.unknownDocument uri)
  | .saved uri (some text) => .ok (s.update uri fun d => { d with content := Utf8.encode text })
  | .saved _ none => .ok s
  | .closed uri => .ok (s.remove uri)

/-- What is published after an event: a closed document has no diagnostics. -/
def respond (analysis : Snapshot → Option (List Located)) : Event → Server × List Publication
  | .opened uri _ | .changed uri _ | .saved uri _ => s.publishWith analysis uri
  | .closed uri => (s, [⟨uri, []⟩])

/-- Handles an event with the given analysis of documents. -/
def handle (analysis : Server → Snapshot → Option (List Located)) (e : Event) :
    Except ServerError (Server × List Publication) :=
  match s.receive e with
  | .error err => .error err
  | .ok s => .ok (s.respond (analysis s) e)

/-- The actions for a range of a document. -/
def actionsIn (uri : String) (range : Range) : Option (List Action) :=
  (s.document? uri).map fun d =>
    d.actions.filter fun a => a.diagnostic.range.intersects range

end Server

/-! ## Where documents are found -/

namespace Workspace

/-- The directory that is loaded. -/
def directory : Bytes := [Path.slash]

/-- Whether a file belongs to a package of the workspace, in which every Go file is a package of its
own. -/
def holds (path : Bytes) : Bool :=
  Path.directory path == directory && (Utf8.encode ".go").isSuffixOf path

end Workspace

end AssignOnce
