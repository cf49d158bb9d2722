import Marmoset.Proofs.Outline
import Marmoset.Proofs.Workspace.Record

/-!
The index of a server is consistent, whatever happens to it. Documents stand in the order in which they
were first indexed and have the bindings of the text that was indexed last; the table of names and the
look-up of a name follow that order. A scan of the workspace replaces nothing.
-/

namespace Marmoset

namespace Index

def filed (symbols : List Symbol) : List (String × List Symbol) := symbols.foldl file []

theorem filed_concat (symbols : List Symbol) (symbol : Symbol) :
    filed (symbols ++ [symbol]) = file (filed symbols) symbol :=
  List.foldl_concat ..

theorem find?_filed (name : String) (symbols : List Symbol) :
    (Table.find? name (filed symbols)).getD [] = symbols.filter (·.name = name) ∧
      ∀ group, Table.find? name (filed symbols) = some group → group ≠ [] := by
  induction symbols using List.reverseRecOn generalizing name with
  | nil => exact ⟨rfl, nofun⟩
  | append_singleton symbols symbol ih =>
      rw [filed_concat, file, Table.find?_write, List.filter_append]
      by_cases same : symbol.name = name
      · subst same
        rw [if_pos rfl, (ih symbol.name).1]
        refine ⟨by simp, ?_⟩
        rintro group ⟨⟩
        simp
      · rw [if_neg same]
        simpa [same] using ih name

theorem nodup_filed (symbols : List Symbol) : ((filed symbols).map Prod.fst).Nodup := by
  induction symbols using List.reverseRecOn with
  | nil => exact List.nodup_nil
  | append_singleton symbols symbol ih =>
      rw [filed_concat]
      exact Table.nodup_write ih

def symbols (index : Index) : List Symbol := index.documents.flatMap Prod.snd

/-- The two tables agree: the table of names is what filing all symbols of the documents leaves. -/
def Coherent (index : Index) : Prop := index.globals = filed index.symbols

theorem empty_coherent : empty.Coherent := rfl

theorem rebuilt_coherent (index : Index) : index.rebuilt.Coherent := by
  rw [Coherent, rebuilt, filed, symbols, List.foldl_flatMap]

theorem insert_coherent (index : Index) (uri : String) (symbols : List Symbol) :
    (index.insert uri symbols).Coherent :=
  rebuilt_coherent _

theorem replay_coherent {index : Index} (coherent : index.Coherent) (record : Record) :
    (index.replay record).Coherent := by
  induction record generalizing index with
  | nil => exact coherent
  | cons entry record ih => exact ih (index.insert_coherent _ _)

section Coherent

variable {index : Index} (coherent : index.Coherent)
include coherent

theorem Coherent.lookup_eq_find? (name : String) :
    index.lookup name = index.symbols.find? (·.name = name) := by
  have found : index.lookup name = ((Table.find? name index.globals).getD []).head? := by
    rw [lookup]
    cases Table.find? name index.globals <;> rfl
  calc
    index.lookup name = ((Table.find? name (filed index.symbols)).getD []).head? := by
      rw [found, coherent]
    _ = (index.symbols.filter (·.name = name)).head? := by rw [(find?_filed name index.symbols).1]
    _ = index.symbols.find? (·.name = name) := List.head?_filter ..

theorem Coherent.find?_globals (name : String) (group : List Symbol) :
    Table.find? name index.globals = some group ↔
      group ≠ [] ∧ group = index.symbols.filter (·.name = name) := by
  have filed := find?_filed name index.symbols
  rw [← coherent] at filed
  constructor
  · intro found
    rw [found] at filed
    exact ⟨filed.2 group rfl, filed.1⟩
  · rintro ⟨filled, rfl⟩
    cases found : Table.find? name index.globals with
    | none =>
        rw [found] at filed
        exact absurd filed.1.symm filled
    | some group =>
        rw [found] at filed
        rw [← filed.1, Option.getD_some]

end Coherent

/-- An index and the texts that were indexed. -/
structure Consistent (index : Index) (record : Record) : Prop where
  /-- Documents stand in the order in which they were first indexed. -/
  order : index.documents.map Prod.fst = (record.map Prod.fst).eraseDups
  /-- A document has the symbols of the text that was indexed last. -/
  latest : ∀ uri symbols, index.symbolsOf? uri = some symbols ↔
    ∃ text outline, Table.latest uri record = some text ∧ Outline.read uri text = .ok outline ∧
      symbols = outline.symbols
  /-- The symbols of a document stand in the order of its text. -/
  places : ∀ uri symbols, index.symbolsOf? uri = some symbols → symbols.Pairwise Symbol.Before
  /-- The table of names holds what filing the symbols of the documents leaves, and nothing else. -/
  coherent : index.Coherent
  /-- Each name stands once in the table of names. -/
  names : (index.globals.map Prod.fst).Nodup
  /-- A name that is bound has all symbols of that name, by document and then by place. -/
  globals : ∀ name group, Table.find? name index.globals = some group ↔
    group ≠ [] ∧ group = (index.documents.flatMap Prod.snd).filter (·.name = name)
  /-- A name is looked for in one document after another. -/
  lookup : ∀ name, index.lookup name =
    index.documents.findSome? fun document => document.2.find? (·.name = name)
  /-- A name is missed just where no document binds it. -/
  missing : ∀ name, index.lookup name = none ↔
    ∀ uri symbols, index.symbolsOf? uri = some symbols → ∀ symbol ∈ symbols, symbol.name ≠ name

theorem documents_replay (index : Index) (record : Record) :
    (index.replay record).documents =
      (record.map fun entry => (entry.1, bindings entry.1 entry.2)).foldl
        (fun table entry => Table.write entry.1 entry.2 table) index.documents := by
  induction record generalizing index with
  | nil => rfl
  | cons entry record ih =>
      rw [replay, List.foldl_cons, ← replay, ih, List.map_cons, List.foldl_cons]
      rfl

theorem documents_of_record (record : Record) : (empty.replay record).documents =
    Table.ofWrites (record.map fun entry => (entry.1, bindings entry.1 entry.2)) :=
  documents_replay empty record

theorem symbolsOf?_of_record (record : Record) (uri : String) :
    (empty.replay record).symbolsOf? uri = (Table.latest uri record).map (bindings uri) := by
  calc
    (empty.replay record).symbolsOf? uri = Table.find? uri (empty.replay record).documents := rfl
    _ = (Table.latest uri record).map (bindings uri) := by
      rw [documents_of_record, Table.find?_ofWrites, Table.latest_map]

theorem addresses_of_record (record : Record) :
    (empty.replay record).documents.map Prod.fst = (record.map Prod.fst).eraseDups := by
  rw [documents_of_record, Table.keys_ofWrites, List.map_map]
  rfl

theorem mem_documents_iff (record : Record) (uri : String) (symbols : List Symbol) :
    (uri, symbols) ∈ (empty.replay record).documents ↔
      (empty.replay record).symbolsOf? uri = some symbols := by
  have distinct : ((empty.replay record).documents.map Prod.fst).Nodup := by
    rw [documents_of_record]
    exact Table.nodup_ofWrites _
  exact ⟨fun member => Table.find?_of_mem distinct member, fun found => Table.mem_of_find? found⟩

theorem latest_of_record {record : Record} (readable : Server.Readable record) (uri : String)
    (symbols : List Symbol) : (empty.replay record).symbolsOf? uri = some symbols ↔
      ∃ text outline, Table.latest uri record = some text ∧ Outline.read uri text = .ok outline ∧
        symbols = outline.symbols := by
  rw [symbolsOf?_of_record, Option.map_eq_some_iff]
  constructor
  · rintro ⟨text, last, rfl⟩
    rcases readable (uri, text) (Table.mem_of_latest last) with ⟨outline, read⟩
    exact ⟨text, outline, last, read, by rw [bindings, read]⟩
  · rintro ⟨text, outline, last, read, rfl⟩
    exact ⟨text, last, by rw [bindings, read]⟩

/-- What texts leave that are indexed one after another is consistent with them. -/
theorem consistent_replay {record : Record} (readable : Server.Readable record) :
    (empty.replay record).Consistent record where
  order := addresses_of_record record
  latest := latest_of_record readable
  places uri symbols indexed := by
    rcases (latest_of_record readable uri symbols).mp indexed with ⟨text, outline, -, read, rfl⟩
    exact Outline.read_ascending read
  coherent := replay_coherent empty_coherent record
  names := by
    rw [replay_coherent empty_coherent record]
    exact nodup_filed _
  globals := (replay_coherent empty_coherent record).find?_globals
  lookup name := by
    rw [(replay_coherent empty_coherent record).lookup_eq_find?, symbols, List.find?_flatMap]
  missing name := by
    simp only [(replay_coherent empty_coherent record).lookup_eq_find?, symbols, List.find?_eq_none,
      List.mem_flatMap, decide_eq_true_eq, ← mem_documents_iff]
    constructor
    · intro unbound uri symbols member symbol inside
      exact unbound symbol ⟨(uri, symbols), member, inside⟩
    · rintro unbound symbol ⟨⟨uri, symbols⟩, member, inside⟩
      exact unbound uri symbols member symbol inside

theorem symbolsOf?_replay {index : Index} {record : Record} {uri : String}
    (others : ∀ entry ∈ record, entry.1 ≠ uri) :
    (index.replay record).symbolsOf? uri = index.symbolsOf? uri := by
  change Table.find? uri (index.replay record).documents = _
  rw [documents_replay, Table.find?_foldl_write]
  · rfl
  · intro entry member
    rcases List.mem_map.mp member with ⟨text, recorded, rfl⟩
    exact others text recorded

end Index

namespace Server

variable {library : Library}

/-- What may happen to a server. -/
inductive Occurrence
  | request (request : Request)
  /-- The workspace is scanned once more. -/
  | rescan
  /-- The files change, or the directory of the workspace. -/
  | files (tree : FileTree) (root : Option TreePath)

def meet (server : Server library) : Occurrence → Server library
  | .request request => (server.handle request).2.2
  | .rescan => ({ server with scanned := false } : Server library).scan.2.2
  | .files tree root => { server with tree, root }

def recordOf (server : Server library) : Occurrence → Record
  | .request request => server.requestRecord request
  | .rescan => ({ server with scanned := false } : Server library).scanRecord
  | .files _ _ => []

def Occurrence.scansOnly : Occurrence → Bool
  | request (.hover _ _ _) => true
  | request (.definition _ _ _) => true
  | rescan => true
  | _ => false

def run (server : Server library) (occurrences : List Occurrence) : Server library := occurrences.foldl meet server

def history : Server library → List Occurrence → Record
  | _, [] => []
  | server, occurrence :: occurrences =>
    server.recordOf occurrence ++ history (server.meet occurrence) occurrences

theorem meet_index (server : Server library) (occurrence : Occurrence) :
    (server.meet occurrence).index = server.index.replay (server.recordOf occurrence) := by
  cases occurrence with
  | request request => exact server.handle_index request
  | rescan => exact scan_index { server with scanned := false }
  | files tree root => rfl

theorem recordOf_readable (server : Server library) (occurrence : Occurrence) :
    Readable (server.recordOf occurrence) := by
  cases occurrence with
  | request request => exact server.requestRecord_readable request
  | rescan => exact (scanRecord_new { server with scanned := false }).1
  | files tree root => exact readable_nil

/-- Whatever happens, the index is what the texts leave that were indexed. -/
theorem run_index (server : Server library) (occurrences : List Occurrence) :
    (server.run occurrences).index = server.index.replay (server.history occurrences) ∧
      Readable (server.history occurrences) := by
  induction occurrences generalizing server with
  | nil => exact ⟨rfl, readable_nil⟩
  | cons occurrence occurrences ih =>
      rcases ih (server.meet occurrence) with ⟨index, readable⟩
      constructor
      · rw [history, Index.replay_append, ← meet_index]
        exact index
      · exact List.forall_mem_append.mpr ⟨server.recordOf_readable occurrence, readable⟩

theorem recordOf_new (server : Server library) {occurrence : Occurrence} (scans : occurrence.scansOnly = true) :
    ∀ entry ∈ server.recordOf occurrence, server.index.symbolsOf? entry.1 = none := by
  cases occurrence with
  | request request =>
      cases request with
      | hover uri line character => exact (server.questionRecord_new uri line character).2
      | definition uri line character => exact (server.questionRecord_new uri line character).2
      | _ => cases scans
  | rescan => exact (scanRecord_new { server with scanned := false }).2
  | files tree root => cases scans

/-- Whatever happens to a server from its start, whatever the library does beneath it, its index is consistent
with the texts that were indexed. A text that a request gives is one of them just where the request is not
refused, and where nothing is indexed but by a scan, no document is replaced. -/
theorem index_consistent (library : Library) (tree : FileTree) (root : Option TreePath)
    (occurrences : List Occurrence) :
    let server := (initial library tree root).run occurrences
    server.index.Consistent ((initial library tree root).history occurrences) ∧
      (∀ request uri text, request.text? = some (uri, text) → server.recordOf (.request request) =
        if (server.handle request).1.isRefused then [] else [(uri, text)]) ∧
      ∀ occurrence : Occurrence, occurrence.scansOnly = true → ∀ uri symbols,
        server.index.symbolsOf? uri = some symbols →
        (server.meet occurrence).index.symbolsOf? uri = some symbols := by
  intro server
  rcases (initial library tree root).run_index occurrences with ⟨index, readable⟩
  refine ⟨?_, fun request uri text given => server.requestRecord_of_text given, ?_⟩
  · rw [index]
    exact Index.consistent_replay readable
  · intro occurrence scans uri symbols indexed
    rw [meet_index, Index.symbolsOf?_replay, indexed]
    intro entry member same
    rw [← same, recordOf_new server scans entry member] at indexed
    cases indexed

/-- A workspace whose file `a.mky` binds `x`, and whose file `b.mky` binds `f`. -/
def twoFiles : FileTree :=
  .below ["ws"] [("a.mky", .file (Text.encode "let x = 9;")), ("b.mky", .file (Text.encode "let f = 2;"))]

/-- The document of the first file is opened with another text. A question about it leads to a scan, and
the document keeps the symbols of the text that is open. -/
theorem opened_document_kept :
    let opening := Occurrence.request (.opened "file:///ws/a.mky" "let f = 1;")
    let question := Occurrence.request (.hover "file:///ws/a.mky" 0 4)
    let server := start twoFiles (some ["ws"])
    let symbol : Symbol := ⟨"f", .variable, "file:///ws/a.mky", 0, 4, "let f"⟩
    question.scansOnly = true ∧
      (server.run [opening]).index.symbolsOf? "file:///ws/a.mky" = some [symbol] ∧
      (server.run [opening, question]).index.symbolsOf? "file:///ws/a.mky" = some [symbol] := by
  intro opening question server symbol
  have indexed : (server.run [opening]).index.symbolsOf? "file:///ws/a.mky" = some [symbol] := by
    decide +kernel
  exact ⟨rfl, indexed, (index_consistent .standard twoFiles (some ["ws"]) [opening]).2.2 question rfl _ _ indexed⟩

end Server

end Marmoset
