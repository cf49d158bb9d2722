import Marmoset.Proofs.Workspace.Address
import Marmoset.Proofs.Workspace.Consistency

/-!
Where a scan of the workspace ends. A file that cannot be read is passed over, and so is one whose document
is indexed. Only a file that is read and whose bytes are no text, or whose text has an integer literal that
is too long, ends the scan before all files are indexed.
-/

namespace Marmoset

namespace Server

variable {library : Library}

def sources (server : Server library) : List TreePath :=
  match server.root with
  | none => []
  | some root => server.sourcePaths root

/-- The files that can be read as text and were not indexed before have the symbols of their text
afterwards. -/
def Indexes (server after : Server library) (paths : List TreePath) : Prop :=
  ∀ path ∈ paths, server.index.symbolsOf? (addressOf path) = none →
    ∀ text, server.tree.readText (pathText path) = .ok text →
      ∃ outline, Outline.read (addressOf path) text = .ok outline ∧
        after.index.symbolsOf? (addressOf path) = some outline.symbols

variable {server : Server library} {paths earlier : List TreePath}

theorem sweep_kept {uri : String} {symbols : List Symbol}
    (indexed : server.index.symbolsOf? uri = some symbols) (paths : List TreePath) :
    (sweep server paths).2.index.symbolsOf? uri = some symbols := by
  rw [sweep_index, Index.symbolsOf?_replay, indexed]
  intro entry member same
  rw [← same, (server.filesRecord_new paths).2 entry member] at indexed
  cases indexed

theorem sweep_completes (clear : ∀ path ∈ paths, server.Clear path) :
    (sweep server paths).1 = .ok () ∧ server.Indexes (sweep server paths).2 paths := by
  induction paths generalizing server with
  | nil => exact ⟨rfl, nofun⟩
  | cons path paths ih =>
      rw [List.forall_mem_cons] at clear
      rcases sweep_clear clear.1 with ⟨next, goes, ⟨rfl, passed⟩ | ⟨text, outline, -, readable, read, rfl⟩⟩
      · rcases ih clear.2 with ⟨ended, indexes⟩
        rw [goes]
        refine ⟨ended, List.forall_mem_cons.mpr ⟨fun new text readable => ?_, indexes⟩⟩
        rcases passed with known | ⟨error, unreadable⟩
        · exact absurd new known
        · rw [readable] at unreadable
          cases unreadable
      · let next : Server library := { server with index := server.index.insert (addressOf path) outline.symbols }
        have own : next.index.symbolsOf? (addressOf path) = some outline.symbols := by
          rw [Index.symbolsOf?_insert, if_pos rfl]
        have kept := sweep_kept own paths
        rcases ih fun other member => (clear.2 other member).inserted (addressOf path) outline.symbols
          with ⟨ended, indexes⟩
        rw [goes]
        refine ⟨ended, List.forall_mem_cons.mpr ⟨fun new found text => ?_, ?_⟩⟩
        · rw [readable] at text
          cases text
          exact ⟨outline, read, kept⟩
        · intro other member new found text
          by_cases same : addressOf path = addressOf other
          · -- the files are one, so the text that was indexed is its text
            have place : pathText path = pathText other := Uri.ofPath_injective same
            rw [← place, readable] at text
            cases text
            rw [← same]
            exact ⟨outline, read, kept⟩
          · apply indexes other member _ found text
            rw [Index.symbolsOf?_insert, if_neg same]
            exact new

theorem sweep_obstructed {path : TreePath} {refusal : Refusal}
    (clear : ∀ other ∈ earlier, server.Clear other)
    (new : server.index.symbolsOf? (addressOf path) = none)
    (obstacle : obstacle? server.tree path = some refusal) (later : List TreePath) :
    sweep server (earlier ++ path :: later) = (.error refusal, (sweep server earlier).2) := by
  induction earlier generalizing server with
  | nil => exact sweep_obstacle new obstacle
  | cons other earlier ih =>
      rw [List.forall_mem_cons] at clear
      rcases sweep_clear clear.1 with ⟨next, goes, ⟨rfl, -⟩ | ⟨text, outline, -, readable, read, rfl⟩⟩
      · rw [List.cons_append, goes, goes]
        exact ih clear.2 new obstacle
      · rw [List.cons_append, goes, goes]
        apply ih (fun file member => (clear.2 file member).inserted _ _) _ obstacle
        rw [Index.symbolsOf?_insert, if_neg]
        · exact new
        · intro same
          -- the files are one, and nothing is in the way of the first of them
          have place : pathText other = pathText path := Uri.ofPath_injective same
          rw [same] at read
          simp only [obstacle?, ← place, readable, read] at obstacle
          cases obstacle

theorem clear_or_obstructed (server : Server library) (paths : List TreePath) :
    (∀ path ∈ paths, server.Clear path) ∨
      ∃ earlier path later refusal, paths = earlier ++ path :: later ∧
        (∀ other ∈ earlier, server.Clear other) ∧
        server.index.symbolsOf? (addressOf path) = none ∧
        obstacle? server.tree path = some refusal := by
  induction paths with
  | nil => exact .inl nofun
  | cons path paths ih =>
      by_cases clear : server.Clear path
      · rcases ih with others | ⟨earlier, file, later, refusal, rfl, others, obstructed⟩
        · exact .inl (List.forall_mem_cons.mpr ⟨clear, others⟩)
        · refine .inr ⟨path :: earlier, file, later, refusal, rfl, ?_, obstructed⟩
          exact List.forall_mem_cons.mpr ⟨clear, others⟩
      · rcases Classical.not_imp.mp clear with ⟨new, blocked⟩
        rcases Option.ne_none_iff_exists'.mp blocked with ⟨refusal, obstacle⟩
        exact .inr ⟨[], path, paths, refusal, rfl, nofun, new, obstacle⟩

theorem sweep_scanned (server : Server library) (paths : List TreePath) :
    (sweep server paths).2.scanned = server.scanned := by
  induction paths generalizing server with
  | nil => rfl
  | cons path paths ih =>
      by_cases clear : server.Clear path
      · rcases sweep_clear clear with ⟨next, goes, ⟨rfl, -⟩ | ⟨text, outline, -, -, -, rfl⟩⟩
        · rw [goes, ih]
        · rw [goes, ih]
      · rcases Classical.not_imp.mp clear with ⟨new, blocked⟩
        rcases Option.ne_none_iff_exists'.mp blocked with ⟨refusal, obstacle⟩
        rw [sweep_obstacle new obstacle]

theorem scan_eq_sweep (unscanned : server.scanned = false) :
    server.scan.1 = (sweep server server.sources).1 ∧
      server.scan.2.2.index = (sweep server server.sources).2.index ∧
      server.scan.2.2.scanned = (sweep server server.sources).1.isOk := by
  have kept := sweep_scanned server server.sources
  rw [unscanned] at kept
  cases place : server.root with
  | none => simp [scan, unscanned, place, sources, sweep, scanFiles, Except.isOk, Except.toBool]
  | some root =>
      simp only [scan, unscanned, place, sources, sweep, if_false, Bool.false_eq_true] at kept ⊢
      generalize scanFiles server (server.sourcePaths root) = outcome at kept ⊢
      rcases outcome with ⟨refusal | ⟨⟩, messages, after⟩
      · exact ⟨rfl, rfl, kept⟩
      · exact ⟨rfl, rfl, rfl⟩

theorem scan_refused {refusal : Refusal} (refused : server.scan.1 = .error refusal) :
    ∃ path ∈ server.sources, server.index.symbolsOf? (addressOf path) = none ∧
      obstacle? server.tree path = some refusal := by
  cases unscanned : server.scanned with
  | true =>
      rw [scan, unscanned, if_pos rfl] at refused
      cases refused
  | false =>
      rw [(scan_eq_sweep unscanned).1] at refused
      rcases clear_or_obstructed server server.sources with
        clear | ⟨earlier, path, later, reason, shape, clear, new, obstacle⟩
      · rw [(sweep_completes clear).1] at refused
        cases refused
      · rw [shape, sweep_obstructed clear new obstacle] at refused
        cases refused
        refine ⟨path, ?_, new, obstacle⟩
        rw [shape]
        exact List.mem_append_right _ List.mem_cons_self

def Request.question? : Request → Option (String × Int × Int)
  | hover uri line character => some (uri, line, character)
  | definition uri line character => some (uri, line, character)
  | _ => none

theorem askAt_refused {uri text : String} {line character : Int} {place : Nat × Nat}
    {answer : Option Symbol → Reply} {refusal : Refusal}
    (answers : ∀ symbol, answer symbol ≠ .refused refusal)
    (valid : library.position line character = .ok place)
    (opened : library.textOf server.documents server.tree uri = .ok text)
    (refused : (server.askAt uri line character answer).1 = .refused refusal) :
    server.scan.1 = .error refusal := by
  simp only [askAt, valid, ask, opened] at refused
  split at refused
  · exact absurd refused (answers none)
  · generalize server.scan = outcome at refused ⊢
    rcases outcome with ⟨reason | ⟨⟩, messages, after⟩
    · cases refused
      rfl
    · exact absurd refused (answers _)

/-- Whatever the workspace holds, documents that are indexed keep their symbols. Where each file that is new
cannot be read, or holds a text with an outline, the scan comes to its end and indexes all that can be
read. Else it ends at the first other file, behind which nothing is indexed; and a question about an open
document is refused for no other reason. -/
theorem scan_ends_at_obstacles_only (server : Server library) :
    let outcome := ({ server with scanned := false } : Server library).scan
    let after := outcome.2.2
    (∀ uri symbols, server.index.symbolsOf? uri = some symbols →
        after.index.symbolsOf? uri = some symbols) ∧
      ((∀ path ∈ server.sources, server.Clear path) →
        outcome.1 = .ok () ∧ after.scanned = true ∧ server.Indexes after server.sources) ∧
      (∀ earlier path later refusal, server.sources = earlier ++ path :: later →
        (∀ other ∈ earlier, server.Clear other) →
        server.index.symbolsOf? (addressOf path) = none → obstacle? server.tree path = some refusal →
        outcome.1 = .error refusal ∧ after.scanned = false ∧ server.Indexes after earlier) ∧
      ∀ request uri line character place text refusal,
        request.question? = some (uri, line, character) →
        library.position line character = .ok place →
        library.textOf server.documents server.tree uri = .ok text →
        (server.handle request).1 = .refused refusal →
        ∃ path ∈ server.sources, server.index.symbolsOf? (addressOf path) = none ∧
          obstacle? server.tree path = some refusal := by
  intro outcome after
  let unscanned : Server library := { server with scanned := false }
  rcases scan_eq_sweep (rfl : unscanned.scanned = false) with ⟨result, index, done⟩
  refine ⟨?_, ?_, ?_, ?_⟩
  · intro uri symbols indexed
    have known : unscanned.index.symbolsOf? uri = some symbols := indexed
    exact index ▸ sweep_kept known unscanned.sources
  · intro clear
    have free : ∀ path ∈ unscanned.sources, unscanned.Clear path := clear
    rcases sweep_completes free with ⟨ended, indexes⟩
    refine ⟨result.trans ended, ?_, ?_⟩
    · rw [done, ended]
      rfl
    · rw [Indexes, index]
      exact indexes
  · intro earlier path later refusal shape clear new obstacle
    have free : ∀ other ∈ earlier, unscanned.Clear other := clear
    have ended := sweep_obstructed free new obstacle later
    have split : unscanned.sources = earlier ++ path :: later := shape
    rw [← split] at ended
    rw [ended] at result index done
    refine ⟨result, done, ?_⟩
    rw [Indexes, index]
    exact (sweep_completes free).2
  · intro request uri line character place text refusal asks valid opened refused
    apply scan_refused
    cases request with
    | hover own line character =>
        cases asks
        have answers (symbol : Option Symbol) :
            Reply.hover (symbol.map Symbol.detail) ≠ .refused refusal := nofun
        exact askAt_refused answers valid opened refused
    | definition own line character =>
        cases asks
        have answers (symbol : Option Symbol) :
            Reply.location (symbol.map fun found => (found.uri, found.range)) ≠ .refused refusal := nofun
        exact askAt_refused answers valid opened refused
    | _ => cases asks

/-- A workspace with a directory that is named like a source file, and a file that binds `f`. -/
def namedDirectory : FileTree :=
  .below ["ws"] [("a.mky", .directory), ("b.mky", .file (Text.encode "let f = 2;"))]

/-- The directory cannot be read; the scan passes it over and indexes the file behind it. -/
theorem directory_passed_over :
    let server := start namedDirectory (some ["ws"])
    server.sources = [["ws", "a.mky"], ["ws", "b.mky"]] ∧
      (server.tree.readText "/ws/a.mky").isOk = false ∧
      (∀ path ∈ server.sources, server.Clear path) ∧
      server.scan.1 = .ok () ∧ server.scan.2.2.scanned = true ∧
      ∃ outline, Outline.read "file:///ws/b.mky" "let f = 2;" = .ok outline ∧
        server.scan.2.2.index.symbolsOf? "file:///ws/b.mky" = some outline.symbols := by
  intro server
  have sources : server.sources = [["ws", "a.mky"], ["ws", "b.mky"]] := by decide +kernel
  have clear : ∀ path ∈ server.sources, server.Clear path := by decide +kernel
  have text : server.tree.readText (pathText ["ws", "b.mky"]) = .ok "let f = 2;" := by
    have shown : (server.tree.readText (pathText ["ws", "b.mky"])).toOption = some "let f = 2;" := by
      decide +kernel
    cases read : server.tree.readText (pathText ["ws", "b.mky"]) with
    | error error =>
        rw [read] at shown
        cases shown
    | ok text =>
        rw [read] at shown
        cases shown
        rfl
  rcases (scan_ends_at_obstacles_only server).2.1 clear with ⟨ended, done, indexes⟩
  refine ⟨sources, by decide +kernel, clear, ended, done, ?_⟩
  refine indexes ["ws", "b.mky"] ?_ rfl "let f = 2;" text
  rw [sources]
  exact List.mem_cons_of_mem _ List.mem_cons_self

/-- A workspace whose only file is no text. -/
def garbledFile : FileTree := .below ["ws"] [("bad.mky", .file [0xff])]

/-- The file ends the scan, and a question about a document that is open is refused for it. -/
theorem garbled_file_refuses_questions :
    let server := (start garbledFile (some ["ws"])).run
      [.request (.opened "file:///a.mky" "let x = 1;")]
    Table.find? "file:///a.mky" server.documents = some "let x = 1;" ∧
      (obstacle? server.tree ["ws", "bad.mky"]).map Refusal.message =
        some "'utf-8' codec can't decode byte 0xff in position 0: invalid start byte" ∧
      server.scan.1.isOk = false ∧ server.scan.2.2.scanned = false ∧
      (server.handle (.hover "file:///a.mky" 0 4)).1.isRefused = true ∧
      (server.handle (.definition "file:///a.mky" 0 4)).1.isRefused = true := by
  decide +kernel

end Server

end Marmoset
