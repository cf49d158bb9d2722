import Mathlib.Data.List.TakeWhile
import Marmoset.Proofs.Workspace.Sweep

/-!
What a server indexes. Each request is put beside the texts that are indexed on the way, also where it is
refused in the end; the index is what these texts leave, one after another.
-/

namespace Marmoset.Server

variable {library : Library}

def textRecord (uri text : String) : Record :=
  match Outline.read uri text with
  | .error _ => []
  | .ok _ => [(uri, text)]

/-- The texts that are indexed where the workspace is scanned, unless that is done. -/
def scanRecord (server : Server library) : Record :=
  if server.scanned then []
  else
    match server.root with
    | none => []
    | some root => server.filesRecord (server.sourcePaths root)

/-- A question leads to a scan where there is a word at its position. -/
def questionRecord (server : Server library) (uri : String) (line character : Int) : Record :=
  match library.position line character, library.textOf server.documents server.tree uri with
  | .ok (line, character), .ok text =>
    if library.word text line character = "" then [] else server.scanRecord
  | _, _ => []

/-- The texts that are indexed while a request is handled. -/
def requestRecord (server : Server library) : Request → Record
  | .update uri text => textRecord uri text
  | .lookup _ => []
  | .opened uri text =>
    match library.opened server.documents uri text with
    | .error _ => []
    | .ok _ => textRecord uri text
  | .changed uri text =>
    match library.changed server.documents uri text with
    | .error _ => []
    | .ok _ => textRecord uri text
  | .symbols _ => []
  | .hover uri line character => server.questionRecord uri line character
  | .definition uri line character => server.questionRecord uri line character

theorem updateIndex_index (server : Server library) (uri text : String) :
    (server.updateIndex uri text).2.index = server.index.replay (textRecord uri text) := by
  rw [textRecord]
  cases read : Outline.read uri text with
  | error error =>
      rw [updateIndex_of_error read]
      rfl
  | ok outline =>
      rw [updateIndex_of_ok read, Index.replay_of_ok read]
      rfl

theorem refresh_index (server : Server library) (uri text : String) :
    (server.refresh uri text).2.2.index = server.index.replay (textRecord uri text) := by
  rw [← updateIndex_index, refresh]
  split
  · next updated => rw [updated]
  · next updated => rw [updated]

theorem scan_index (server : Server library) :
    server.scan.2.2.index = server.index.replay server.scanRecord := by
  rw [scan, scanRecord]
  split
  · rfl
  · cases server.root with
    | none => rfl
    | some root =>
        rw [← sweep_index, sweep]
        dsimp only
        split
        · next scanned => rw [scanned]
        · next scanned => rw [scanned]

theorem askAt_index (server : Server library) (uri : String) (line character : Int)
    (answer : Option Symbol → Reply) :
    (server.askAt uri line character answer).2.2.index =
      server.index.replay (server.questionRecord uri line character) := by
  rw [askAt, questionRecord]
  cases library.position line character with
  | error refusal => rfl
  | ok place =>
      simp only [ask]
      cases library.textOf server.documents server.tree uri with
      | error refusal => rfl
      | ok text =>
          dsimp only
          split
          · rfl
          · rw [← scan_index]
            split
            · next scanned => rw [scanned]
            · next scanned => rw [scanned]

theorem handle_index (server : Server library) (request : Request) :
    (server.handle request).2.2.index = server.index.replay (server.requestRecord request) := by
  cases request with
  | update uri text =>
      rw [requestRecord, ← updateIndex_index, handle]
      split
      · next updated => rw [updated]
      · next updated => rw [updated]
  | lookup word => rfl
  | opened uri text =>
      simp only [handle, requestRecord]
      cases library.opened server.documents uri text with
      | error refusal => rfl
      | ok documents => exact refresh_index _ uri text
  | changed uri text =>
      simp only [handle, requestRecord]
      cases changed : library.changed server.documents uri text with
      | error refusal => rfl
      | ok documents =>
          simp only [library.textOf_changed changed]
          exact refresh_index _ uri text
  | symbols uri => rfl
  | hover uri line character => exact askAt_index server uri line character _
  | definition uri line character => exact askAt_index server uri line character _

def Request.text? : Request → Option (String × String)
  | update uri text => some (uri, text)
  | opened uri text => some (uri, text)
  | changed uri text => some (uri, text)
  | _ => none

def Reply.isRefused : Reply → Bool
  | refused _ => true
  | _ => false

theorem error_or_ok {ε α : Type} (result : Except ε α) :
    (∃ reason, result = .error reason) ∨ ∃ value, result = .ok value := by
  cases result with
  | error reason => exact .inl ⟨reason, rfl⟩
  | ok value => exact .inr ⟨value, rfl⟩

theorem refresh_record (server : Server library) (uri text : String) :
    textRecord uri text = if (server.refresh uri text).1.isRefused then [] else [(uri, text)] := by
  rw [textRecord, refresh]
  cases read : Outline.read uri text with
  | error error =>
      rw [updateIndex_of_error read]
      rfl
  | ok outline =>
      rw [updateIndex_of_ok read]
      rfl

/-- A text that a request gives is recorded just where the request is not refused. -/
theorem requestRecord_of_text (server : Server library) {request : Request} {uri text : String}
    (given : request.text? = some (uri, text)) :
    server.requestRecord request =
      if (server.handle request).1.isRefused then [] else [(uri, text)] := by
  cases request with
  | update uri text =>
      cases given
      rw [requestRecord, textRecord, handle]
      cases read : Outline.read uri text with
      | error error =>
          rw [updateIndex_of_error read]
          rfl
      | ok outline =>
          rw [updateIndex_of_ok read]
          rfl
  | opened uri text =>
      cases given
      simp only [requestRecord, handle]
      rcases error_or_ok (library.opened server.documents uri text) with
        ⟨refusal, refused⟩ | ⟨documents, opened⟩
      · simp only [refused]
        rfl
      · simp only [opened]
        exact refresh_record _ uri text
  | changed uri text =>
      cases given
      simp only [requestRecord, handle]
      rcases error_or_ok (library.changed server.documents uri text) with
        ⟨refusal, refused⟩ | ⟨documents, changed⟩
      · simp only [refused]
        rfl
      · simp only [changed, library.textOf_changed changed]
        exact refresh_record _ uri text
  | _ => cases given

def Readable (record : Record) : Prop :=
  ∀ entry ∈ record, ∃ outline, Outline.read entry.1 entry.2 = .ok outline

theorem readable_nil : Readable [] := nofun

theorem textRecord_readable (uri text : String) : Readable (textRecord uri text) := by
  rw [textRecord]
  cases read : Outline.read uri text with
  | error error => exact readable_nil
  | ok outline => exact List.forall_mem_singleton.mpr ⟨outline, read⟩

theorem filesRecord_new (server : Server library) (paths : List TreePath) :
    Readable (server.filesRecord paths) ∧
      ∀ entry ∈ server.filesRecord paths, server.index.symbolsOf? entry.1 = none := by
  have met {entry : String × String} (member : entry ∈ server.filesRecord paths) :
      server.index.symbolsOf? entry.1 = none ∧ ∃ outline, Outline.read entry.1 entry.2 = .ok outline := by
    rcases entry with ⟨uri, text⟩
    rcases mem_filesRecord.mp member with ⟨path, reached, new, rfl, readable⟩
    have clear : server.Clear path := by simpa using List.mem_takeWhile_imp reached
    have free := clear new
    simp only [obstacle?, readable] at free
    refine ⟨new, ?_⟩
    cases read : Outline.read (addressOf path) text with
    | error error =>
        rw [read] at free
        cases free
    | ok outline => exact ⟨outline, rfl⟩
  exact ⟨fun entry member => (met member).2, fun entry member => (met member).1⟩

theorem scanRecord_new (server : Server library) :
    Readable server.scanRecord ∧ ∀ entry ∈ server.scanRecord, server.index.symbolsOf? entry.1 = none := by
  rw [scanRecord]
  split
  · exact ⟨readable_nil, nofun⟩
  · cases server.root with
    | none => exact ⟨readable_nil, nofun⟩
    | some root => exact server.filesRecord_new (server.sourcePaths root)

theorem questionRecord_new (server : Server library) (uri : String) (line character : Int) :
    Readable (server.questionRecord uri line character) ∧
      ∀ entry ∈ server.questionRecord uri line character, server.index.symbolsOf? entry.1 = none := by
  rw [questionRecord]
  split
  · split
    · exact ⟨readable_nil, nofun⟩
    · exact server.scanRecord_new
  · exact ⟨readable_nil, nofun⟩

theorem requestRecord_readable (server : Server library) (request : Request) :
    Readable (server.requestRecord request) := by
  cases request with
  | update uri text => exact textRecord_readable uri text
  | lookup word => exact readable_nil
  | opened uri text =>
      rw [requestRecord]
      split
      · exact readable_nil
      · exact textRecord_readable uri text
  | changed uri text =>
      rw [requestRecord]
      split
      · exact readable_nil
      · exact textRecord_readable uri text
  | symbols uri => exact readable_nil
  | hover uri line character => exact (server.questionRecord_new uri line character).1
  | definition uri line character => exact (server.questionRecord_new uri line character).1

end Marmoset.Server
