import Marmoset.Proofs.Table
import Marmoset.Proofs.Workspace.Address
import Marmoset.Workspace.Server

/-!
How a scan of the workspace goes from file to file. A file that cannot be read is passed over, and so is one
whose document is indexed; of every other file the text is indexed, up to one that holds no text or no
outline. The texts that a scan indexes are told from the files alone.
-/

namespace Marmoset

abbrev Record := List (String × String)

namespace Index

theorem symbolsOf?_insert (index : Index) (uri other : String) (symbols : List Symbol) :
    (index.insert uri symbols).symbolsOf? other =
      if uri = other then some symbols else index.symbolsOf? other :=
  Table.find?_write

theorem symbolsOf?_of_insert {index : Index} {uri other : String} {symbols : List Symbol}
    (missing : (index.insert uri symbols).symbolsOf? other = none) : index.symbolsOf? other = none := by
  rw [symbolsOf?_insert] at missing
  split at missing
  · cases missing
  · exact missing

theorem contains_iff (index : Index) (uri : String) :
    index.contains uri = true ↔ index.symbolsOf? uri ≠ none :=
  Option.isSome_iff_ne_none

def bindings (uri text : String) : List Symbol :=
  match Outline.read uri text with
  | .error _ => []
  | .ok outline => outline.symbols

def replay (index : Index) (record : Record) : Index :=
  record.foldl (fun index entry => index.insert entry.1 (bindings entry.1 entry.2)) index

theorem replay_append (index : Index) (first second : Record) :
    index.replay (first ++ second) = (index.replay first).replay second :=
  List.foldl_append

theorem replay_of_ok {uri text : String} {outline : Outline} (read : Outline.read uri text = .ok outline)
    (index : Index) (record : Record) : index.replay ((uri, text) :: record) =
      (index.insert uri outline.symbols).replay record := by
  simp only [replay, List.foldl_cons, bindings, read]

end Index

namespace Server

variable {library : Library}

section Update

variable {server : Server library} {uri text : String}

theorem updateIndex_of_error {error : Text.IntegerError} (unread : Outline.read uri text = .error error) :
    server.updateIndex uri text = (.error error, server) := by
  simp only [updateIndex, Index.update, unread]
  rfl

theorem updateIndex_of_ok {outline : Outline} (read : Outline.read uri text = .ok outline) :
    server.updateIndex uri text =
      (.ok outline.notices, { server with index := server.index.insert uri outline.symbols }) := by
  simp only [updateIndex, Index.update, read]
  rfl

end Update

def addressOf (path : TreePath) : String := Uri.ofPath (pathText path)

/-- Why a file ends a scan: what is read of it is no text, or a text without an outline. A file that cannot
be read does not. -/
def obstacle? (tree : FileTree) (path : TreePath) : Option Refusal :=
  match tree.readText (pathText path) with
  | .error (.file _ _) => none
  | .error error => some (.unreadable error)
  | .ok text =>
    match Outline.read (addressOf path) text with
    | .error error => some (.badInteger error)
    | .ok _ => none

/-- A file that does not end a scan: its document is indexed, or nothing is in the way. -/
def Clear (server : Server library) (path : TreePath) : Prop :=
  server.index.symbolsOf? (addressOf path) = none → obstacle? server.tree path = none

instance (server : Server library) (path : TreePath) : Decidable (server.Clear path) :=
  inferInstanceAs (Decidable (_ → _))

/-- How a scan of files ends, apart from its messages. -/
def sweep (server : Server library) (paths : List TreePath) : Except Refusal Unit × Server library :=
  ((scanFiles server paths).1, (scanFiles server paths).2.2)

section Step

variable {server : Server library} {path : TreePath} {paths : List TreePath}

theorem sweep_known (known : server.index.symbolsOf? (addressOf path) ≠ none) :
    sweep server (path :: paths) = sweep server paths := by
  have contained := (server.index.contains_iff _).mpr known
  rw [addressOf] at contained
  simp only [sweep, scanFiles, contained, if_true]

theorem not_contains (new : server.index.symbolsOf? (addressOf path) = none) :
    ¬ server.index.contains (Uri.ofPath (pathText path)) = true :=
  fun contained => (server.index.contains_iff _).mp contained new

theorem sweep_unreadable (new : server.index.symbolsOf? (addressOf path) = none) {error : FileError}
    {place : String} (unreadable : server.tree.readText (pathText path) = .error (.file error place)) :
    sweep server (path :: paths) = sweep server paths := by
  simp only [sweep, scanFiles, not_contains new, if_false, unreadable, Bool.false_eq_true]

theorem sweep_text (new : server.index.symbolsOf? (addressOf path) = none) {text : String}
    {outline : Outline} (readable : server.tree.readText (pathText path) = .ok text)
    (read : Outline.read (addressOf path) text = .ok outline) :
    sweep server (path :: paths) =
      sweep { server with index := server.index.insert (addressOf path) outline.symbols } paths := by
  have updated : server.updateIndex (addressOf path) text = _ := updateIndex_of_ok read
  rw [addressOf] at updated
  simp only [sweep, scanFiles, not_contains new, if_false, readable, updated, Bool.false_eq_true]
  rfl

theorem sweep_obstacle (new : server.index.symbolsOf? (addressOf path) = none) {refusal : Refusal}
    (obstacle : obstacle? server.tree path = some refusal) :
    sweep server (path :: paths) = (.error refusal, server) := by
  unfold obstacle? at obstacle
  simp only [sweep, scanFiles, not_contains new, if_false, Bool.false_eq_true]
  cases result : server.tree.readText (pathText path) with
  | error error =>
      rw [result] at obstacle
      cases error with
      | file error place => cases obstacle
      | nullInPath => cases obstacle; rfl
      | undecodable error => cases obstacle; rfl
  | ok text =>
      rw [result] at obstacle
      dsimp only at obstacle ⊢
      cases read : Outline.read (addressOf path) text with
      | error error =>
          rw [read] at obstacle
          cases obstacle
          rw [addressOf] at read
          rw [updateIndex_of_error read]
      | ok outline =>
          rw [read] at obstacle
          cases obstacle

theorem sweep_clear (clear : server.Clear path) :
    ∃ next : Server library, (∀ paths, sweep server (path :: paths) = sweep next paths) ∧
      (next = server ∧ (server.index.symbolsOf? (addressOf path) ≠ none ∨
          ∃ error, server.tree.readText (pathText path) = .error error) ∨
        ∃ text outline, server.index.symbolsOf? (addressOf path) = none ∧
          server.tree.readText (pathText path) = .ok text ∧
          Outline.read (addressOf path) text = .ok outline ∧
          next = { server with index := server.index.insert (addressOf path) outline.symbols }) := by
  by_cases new : server.index.symbolsOf? (addressOf path) = none
  · have free := clear new
    unfold obstacle? at free
    cases result : server.tree.readText (pathText path) with
    | error error =>
        rw [result] at free
        cases error with
        | file error place =>
            exact ⟨server, fun paths => sweep_unreadable new result, .inl ⟨rfl, .inr ⟨_, rfl⟩⟩⟩
        | nullInPath => cases free
        | undecodable error => cases free
    | ok text =>
        rw [result] at free
        cases read : Outline.read (addressOf path) text with
        | error error =>
            simp only [read] at free
            cases free
        | ok outline =>
            exact ⟨_, fun paths => sweep_text new result read, .inr ⟨text, outline, new, rfl, read, rfl⟩⟩
  · exact ⟨server, fun paths => sweep_known new, .inl ⟨rfl, .inl new⟩⟩

end Step

theorem Clear.inserted {server : Server library} {path : TreePath} (clear : server.Clear path)
    (uri : String) (symbols : List Symbol) :
    ({ server with index := server.index.insert uri symbols } : Server library).Clear path :=
  fun new => clear (Index.symbolsOf?_of_insert new)

def indexed? (server : Server library) (path : TreePath) : Option (String × String) :=
  if server.index.contains (addressOf path) then none
  else (server.tree.readText (pathText path)).toOption.map (addressOf path, ·)

/-- The texts that a scan of files indexes: those of the files before the first one in the way. -/
def filesRecord (server : Server library) (paths : List TreePath) : Record :=
  ((paths.takeWhile fun path => server.Clear path).filterMap server.indexed?).eraseDups

section Record

variable {server : Server library} {path : TreePath} {paths : List TreePath}

theorem indexed?_eq_some {entry : String × String} : server.indexed? path = some entry ↔
    server.index.symbolsOf? (addressOf path) = none ∧ entry.1 = addressOf path ∧
      server.tree.readText (pathText path) = .ok entry.2 := by
  rcases entry with ⟨uri, text⟩
  unfold indexed?
  split
  · next known =>
      have known := (server.index.contains_iff _).mp known
      exact ⟨nofun, fun new => absurd new.1 known⟩
  · next new =>
      have new := Classical.not_not.mp (mt (server.index.contains_iff _).mpr new)
      cases server.tree.readText (pathText path) <;> simp [new, Except.toOption, eq_comm]

/-- Which texts a scan indexes: of a file before the first one in the way, whose document is not indexed
before, the text that is read of it. -/
theorem mem_filesRecord {entry : String × String} : entry ∈ server.filesRecord paths ↔
    ∃ path ∈ paths.takeWhile fun path => server.Clear path,
      server.index.symbolsOf? (addressOf path) = none ∧ entry.1 = addressOf path ∧
        server.tree.readText (pathText path) = .ok entry.2 := by
  rw [filesRecord, List.mem_eraseDups, List.mem_filterMap]
  simp only [indexed?_eq_some]

theorem filesRecord_passed (clear : server.Clear path) (passed : server.indexed? path = none) :
    server.filesRecord (path :: paths) = server.filesRecord paths := by
  rw [filesRecord, List.takeWhile_cons, if_pos (decide_eq_true clear), List.filterMap_cons_none passed]
  rfl

theorem filesRecord_obstacle (blocked : ¬ server.Clear path) : server.filesRecord (path :: paths) = [] := by
  rw [filesRecord, List.takeWhile_cons, if_neg (by simpa using blocked)]
  rfl

theorem passed_of_known (known : server.index.symbolsOf? (addressOf path) ≠ none) :
    server.indexed? path = none := by
  rw [indexed?, if_pos ((server.index.contains_iff _).mpr known)]

theorem passed_of_error {error : TextError}
    (unreadable : server.tree.readText (pathText path) = .error error) : server.indexed? path = none := by
  rw [indexed?, unreadable]
  exact ite_self _

theorem filesRecord_text {text : String} {outline : Outline}
    (new : server.index.symbolsOf? (addressOf path) = none)
    (readable : server.tree.readText (pathText path) = .ok text)
    (read : Outline.read (addressOf path) text = .ok outline) :
    server.filesRecord (path :: paths) = (addressOf path, text) ::
      filesRecord { server with index := server.index.insert (addressOf path) outline.symbols } paths := by
  let next : Server library :=
    { server with index := server.index.insert (addressOf path) outline.symbols }
  have free : obstacle? server.tree path = none := by simp only [obstacle?, readable, read]
  have found (other : TreePath) : next.index.symbolsOf? (addressOf other) =
      if addressOf path = addressOf other then some outline.symbols
      else server.index.symbolsOf? (addressOf other) := server.index.symbolsOf?_insert ..
  have clear (other : TreePath) : server.Clear other ↔ next.Clear other := by
    by_cases same : addressOf path = addressOf other
    · have place : pathText path = pathText other := Uri.ofPath_injective same
      have free : obstacle? server.tree other = none := by
        simpa only [obstacle?, ← place, ← same] using free
      exact ⟨fun _ _ => free, fun _ _ => free⟩
    · rw [Clear, Clear, found, if_neg same]
  have indexed (other : TreePath) :
      (server.indexed? other).filter (!· == (addressOf path, text)) = next.indexed? other := by
    by_cases same : addressOf path = addressOf other
    · have place : pathText path = pathText other := Uri.ofPath_injective same
      have own : server.indexed? other = some (addressOf path, text) :=
        indexed?_eq_some.mpr ⟨same ▸ new, same, place ▸ readable⟩
      have known : next.index.symbolsOf? (addressOf other) ≠ none := by
        rw [found, if_pos same]
        nofun
      rw [own, passed_of_known known]
      simp
    · have kept : next.index.contains (addressOf other) = server.index.contains (addressOf other) := by
        rw [Index.contains, Index.contains, found, if_neg same]
      rw [indexed?, indexed?, kept]
      split
      · rfl
      · change Option.filter _ (Option.map _ (server.tree.readText (pathText other)).toOption) =
          Option.map _ (server.tree.readText (pathText other)).toOption
        cases (server.tree.readText (pathText other)).toOption with
        | none => rfl
        | some other => simp [Ne.symm same]
  have first : server.indexed? path = some (addressOf path, text) :=
    indexed?_eq_some.mpr ⟨new, rfl, readable⟩
  have own : server.Clear path := fun _ => free
  rw [filesRecord, List.takeWhile_cons, if_pos (decide_eq_true own), List.filterMap_cons_some first,
    List.eraseDups_cons, List.filter_filterMap]
  simp only [clear, indexed]
  rfl

/-- One file after another, a scan leaves what it records, whether it comes to its end or not. -/
theorem sweep_index (server : Server library) (paths : List TreePath) :
    (sweep server paths).2.index = server.index.replay (server.filesRecord paths) := by
  induction paths generalizing server with
  | nil => rfl
  | cons path paths ih =>
      by_cases clear : server.Clear path
      · rcases sweep_clear clear with ⟨next, goes, ⟨rfl, passed⟩ | ⟨text, outline, new, readable, read, rfl⟩⟩
        · have none : next.indexed? path = none := by
            rcases passed with known | ⟨error, unreadable⟩
            · exact passed_of_known known
            · exact passed_of_error unreadable
          rw [goes, ih, filesRecord_passed clear none]
        · rw [goes, ih, filesRecord_text new readable read, Index.replay_of_ok read]
      · rcases Classical.not_imp.mp clear with ⟨new, blocked⟩
        rcases Option.ne_none_iff_exists'.mp blocked with ⟨refusal, obstacle⟩
        rw [sweep_obstacle new obstacle, filesRecord_obstacle clear]
        rfl

end Record

end Server

end Marmoset
