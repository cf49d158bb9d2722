import Marmoset.Proofs.Console.Unfinished
import Marmoset.Proofs.Evaluation.Safety
import Marmoset.Proofs.Session.Runs

/-!
An exchange at the console is a fold over chunks of lines. The lines up to the end of the exchange fall
into chunks, each of which waits for more up to its last line; the chunks are processed in order in one
session, and the lines that are still waiting at the end are not processed. What is shown, when a chunk
waits and which lines leave the console is told here from the messages and the characters themselves.
-/

namespace Marmoset

def Region.all : Region := ⟨fun _ => True, 0, fun _ => trivial⟩

def asLines (lines : List String) : String := String.join (lines.map (· ++ "\n"))

/-- What is shown of a source that has diagnostics: a heading, and each message behind a tab. -/
def reportLines (messages : List String) : List String := "parser errors:" :: messages.map ("\t" ++ ·)

def valueLines : Except Failure Value → List String
  | .ok .null => []
  | .ok value => [value.inspect]
  | .error _ => []

theorem errorsText_eq (messages : List String) : errorsText messages = asLines (reportLines messages) := by
  simp only [errorsText, asLines, reportLines, List.map_cons, List.map_map, String.join_cons]
  rfl

theorem resultText_eq (value : Value) : resultText value = asLines (valueLines (.ok value)) := by
  cases value <;> simp [resultText, asLines, valueLines, String.join]

namespace Session

/-- Processes a whole source: its diagnostics are shown and the session stays as it is, or the source is
run and what it prints is shown, its value last. -/
def process (session : Session) (debug : Bool) (source : String) : String × Session :=
  match Grammar.read session.limit source with
  | .error _ => ("", session)
  | .ok reading =>
    if reading.diagnostics.isEmpty then
      let (result, after) := session.run source
      let (printed, after) := after.takePrinted
      let shown := if debug then debugText source reading.program else ""
      (shown ++ printed ++ asLines (valueLines result), after)
    else (asLines (reportLines reading.errors), session)

def processAll (session : Session) (debug : Bool) : List String → List String × Session
  | [] => ([], session)
  | source :: sources =>
    let (out, after) := session.process debug source
    let (outs, last) := after.processAll debug sources
    (out :: outs, last)

def Formed (session : Session) : Prop := Kept .formed .all session.machine

theorem fresh_formed (limit : Nat) : (fresh limit).Formed where
  size := Nat.zero_le _
  outer := fun _ _ _ _ => trivial
  bindings := by
    intro id scope _ there binding bound
    rcases Machine.scope_of_addScope there with ⟨-, rfl⟩ | there
    · cases bound
    · simp [Machine.empty] at there

theorem Formed.evaluate {session : Session} (formed : session.Formed) {program : Node}
    (wellFormed : program.wellFormed = true) :
    (∃ value, (session.evaluate program).1 = .ok value) ∧ (session.evaluate program).2.Formed := by
  have inside : Region.all.inside session.root := trivial
  rcases Kept.evaluate formed session.limit inside wellFormed with ⟨after, known⟩
  exact ⟨Stop.shown_known known, after⟩

theorem Formed.takePrinted {session : Session} (formed : session.Formed) :
    session.takePrinted.2.Formed :=
  ⟨formed.size, formed.outer, formed.bindings⟩

theorem process_of_reported {session : Session} {source : String} {reading : Reading} (debug : Bool)
    (read : Grammar.read session.limit source = .ok reading) (reported : reading.diagnostics ≠ []) :
    session.process debug source = (asLines (reportLines reading.errors), session) := by
  have filled : reading.diagnostics.isEmpty = false := by simpa using reported
  simp only [process, read, filled, Bool.false_eq_true, if_false]

theorem present_of_clean {session : Session} (formed : session.Formed) {source : String}
    {statements : List Node} (debug : Bool)
    (read : Grammar.read session.limit source = .ok ⟨statements, []⟩) :
    ∃ value, session.present debug source (.program statements) =
      .ok (value, session.process debug source) ∧ (session.process debug source).2.Formed ∧
      (session.process debug source).2.limit = session.limit := by
  have wellFormed : (Node.program statements).wellFormed = true :=
    Grammar.readTokens_formed (scan_valid source) read
  rcases formed.evaluate wellFormed with ⟨⟨value, result⟩, after⟩
  have run := run_of_clean read
  have processed : session.process debug source =
      ((if debug then debugText source (.program statements) else "") ++
        (session.evaluate (.program statements)).2.takePrinted.1 ++ resultText value,
        (session.evaluate (.program statements)).2.takePrinted.2) := by
    simp only [process, read, run, result, resultText_eq, Reading.program, List.isEmpty_nil, if_true]
  refine ⟨value, ?_, ?_, ?_⟩
  · rw [processed, present]
    simp only [result]
  · rw [processed]
    exact after.takePrinted
  · rw [processed]
    rfl

end Session

namespace Console

def sourceOf (lines : List String) : String := "\n".intercalate lines

/-- The console waits for more behind these lines: a message of their source says that the end came instead
of what was due, and the last line is not blank. -/
def Awaits (limit : Nat) (lines : List String) : Prop :=
  ∃ reading last, Grammar.read limit (sourceOf lines) = .ok reading ∧
    (∃ message ∈ reading.errors, "got EOF instead".toList <:+: message.toList) ∧
    lines.getLast? = some last ∧ ∃ c ∈ last.toList, Text.isSpace c = false

/-- A line that leaves the console where a source may start: one of two words, with blank space around it. -/
def Leaves (line : String) : Prop :=
  ∃ word ∈ ["exit", "quit"], ∃ before behind,
    line.toList = before ++ word.toList ++ behind ∧ Text.Blank before ∧ Text.Blank behind

theorem leaves_iff (line : String) : leaves line = true ↔ Leaves line := by
  have word {word : String} (filled : word.toList ≠ [])
      (starts : word.toList.dropWhile Text.isSpace = word.toList)
      (ends : word.toList.reverse.dropWhile Text.isSpace = word.toList.reverse) :
      Text.trim line = word ↔ ∃ before behind,
        line.toList = before ++ word.toList ++ behind ∧ Text.Blank before ∧ Text.Blank behind := by
    rw [← Text.trimChars_eq_word filled starts ends, Text.trim, ← String.toList_inj, String.toList_ofList]
  have exit := @word "exit" (by decide) (by decide) (by decide)
  have quit := @word "quit" (by decide) (by decide) (by decide)
  simp only [leaves, Bool.or_eq_true, decide_eq_true_eq, exit, quit, Leaves, List.mem_cons,
    List.not_mem_nil, or_false, exists_eq_or_imp, exists_eq_left]

def Overlong (lines : List String) : Prop :=
  ∃ token ∈ Token.scan (sourceOf lines), token.kind = .int ∧ 4300 < token.literal.length

structure Gathered (limit : Nat) (lines : List String) : Prop where
  entered : ∀ first ∈ lines.head?, ¬ Leaves first
  waits : ∀ front, front <+: lines → front ≠ [] → Awaits limit front

/-- A chunk waits for more up to its last line, and no longer. -/
structure Chunk (limit : Nat) (lines : List String) : Prop where
  filled : lines ≠ []
  entered : ∀ first ∈ lines.head?, ¬ Leaves first
  waits : ∀ front, front <+: lines → front ≠ [] → front ≠ lines → Awaits limit front
  whole : ¬ Awaits limit lines

/-- The entries are the lines of the chunks, the lines that still wait, and the rest. -/
structure Partition (limit : Nat) (entries : List Entry) (chunks : List (List String))
    (pending : List String) (rest : List Entry) : Prop where
  entries : entries = (chunks.flatten ++ pending).map .line ++ rest
  chunks : ∀ chunk ∈ chunks, Chunk limit chunk
  pending : Gathered limit pending

/-- How an exchange ends behind the lines that still wait: the text printed, and the entries left. Only
where no line waits can a line leave the console. -/
inductive Ending : List String → List Entry → String → List Entry → Prop
  | leave {line : String} (leaving : Leaves line) (unread : List Entry) :
      Ending [] (.line line :: unread) "" unread
  | interrupt (pending : List String) (unread : List Entry) :
      Ending pending (.interrupt :: unread) "\nInterrupted.\n" unread
  | finish (pending : List String) (unread : List Entry) :
      Ending pending (.finish :: unread) "\n" unread
  | ended (pending : List String) : Ending pending [] "\n" []

def promptAt (index : Nat) : String := if index = 0 then ">> " else ".. "

def waitingTurns (lines : List String) : List (String × String) :=
  lines.mapIdx fun index _ => (promptAt index, "")

def chunkTurns (lines : List String) (out : String) : List (String × String) :=
  lines.mapIdx fun index _ => (promptAt index, if index + 1 = lines.length then out else "")

/-- The turns of an exchange over chunks, of the lines that still wait, and of its end. -/
def turns (chunks : List (List String)) (outs : List String) (pending : List String)
    (farewell : String) : List (String × String) :=
  (List.zipWith chunkTurns chunks outs).flatten ++ waitingTurns pending ++
    [(promptAt pending.length, farewell)]

def sessionAfter : Console → List Entry → Session
  | console, [] => console.session
  | console, entry :: entries =>
    match console.feed entry with
    | .ok ⟨_, some next⟩ => next.sessionAfter entries
    | _ => console.session

theorem prompt_eq (console : Console) : console.prompt = promptAt console.pending.length := by
  rw [prompt, promptAt]
  cases console.pending <;> rfl

theorem waitingTurns_concat (lines : List String) (line : String) :
    waitingTurns (lines ++ [line]) = waitingTurns lines ++ [(promptAt lines.length, "")] := by
  rw [waitingTurns, List.mapIdx_concat]
  rfl

theorem chunkTurns_concat (lines : List String) (line out : String) :
    chunkTurns (lines ++ [line]) out = waitingTurns lines ++ [(promptAt lines.length, out)] := by
  have inner : lines.mapIdx (fun index _ => (promptAt index,
      if index + 1 = (lines ++ [line]).length then out else "")) = waitingTurns lines := by
    rw [waitingTurns, List.mapIdx_eq_mapIdx_iff]
    intro index inside
    rw [if_neg (by simp; omega)]
  rw [chunkTurns, List.mapIdx_concat, inner, if_pos (by simp)]

section Lines

variable {limit : Nat} {lines : List String} {line : String}

theorem awaits_iff {reading : Reading}
    (read : Grammar.read limit (sourceOf (lines ++ [line])) = .ok reading) :
    Awaits limit (lines ++ [line]) ↔ reading.unfinished = true ∧ Text.trim line ≠ "" := by
  constructor
  · rintro ⟨other, last, same, unfinished, final, filled⟩
    rw [read] at same
    cases same
    rw [List.getLast?_concat] at final
    cases final
    exact ⟨reading.unfinished_iff.mpr unfinished, Text.trim_ne_empty.mpr filled⟩
  · rintro ⟨unfinished, filled⟩
    exact ⟨reading, line, read, reading.unfinished_iff.mp unfinished, List.getLast?_concat,
      Text.trim_ne_empty.mp filled⟩

theorem Gathered.nil : Gathered limit [] :=
  ⟨nofun, fun _ before filled => absurd (List.prefix_nil.mp before) filled⟩

theorem Gathered.entered_concat (gathered : Gathered limit lines)
    (enters : lines = [] → ¬ Leaves line) :
    ∀ first ∈ (lines ++ [line]).head?, ¬ Leaves first := by
  cases lines with
  | nil =>
      rintro first ⟨⟩
      exact enters rfl
  | cons other lines => exact gathered.entered

theorem Gathered.concat (gathered : Gathered limit lines) (enters : lines = [] → ¬ Leaves line)
    (awaits : Awaits limit (lines ++ [line])) : Gathered limit (lines ++ [line]) := by
  refine ⟨gathered.entered_concat enters, fun front before filled => ?_⟩
  rcases List.prefix_concat_iff.mp before with rfl | inside
  · exact awaits
  · exact gathered.waits front inside filled

theorem Gathered.chunk (gathered : Gathered limit lines) (enters : lines = [] → ¬ Leaves line)
    (whole : ¬ Awaits limit (lines ++ [line])) : Chunk limit (lines ++ [line]) := by
  refine ⟨by simp, gathered.entered_concat enters, fun front before filled proper => ?_, whole⟩
  rcases List.prefix_concat_iff.mp before with same | inside
  · exact absurd same proper
  · exact gathered.waits front inside filled

end Lines

theorem overlong_of_error {limit : Nat} {lines : List String} {error : Text.IntegerError}
    (read : Grammar.read limit (sourceOf lines) = .error error) : Overlong lines := by
  by_contra within
  have short : ∀ token ∈ Token.scan (sourceOf lines), token.kind = .int →
      token.literal.length ≤ 4300 := by
    intro token member kind
    by_contra long
    exact within ⟨token, member, kind, Nat.not_le.mp long⟩
  rcases Grammar.read_formed limit (sourceOf lines) short with ⟨reading, other, -⟩
  rw [read] at other
  cases other

/-- A line breaks the exchange off at an integer literal, or it is kept, or it completes a chunk, which is
processed. -/
theorem submit_cases {console : Console} (formed : console.session.Formed) (line : String) :
    (∃ error, console.submit line = .error (.badInteger error) ∧
        Overlong (console.pending ++ [line])) ∨
      (Awaits console.session.limit (console.pending ++ [line]) ∧
        console.submit line = .ok ⟨"", some { console with pending := console.pending ++ [line] }⟩) ∨
      (¬ Awaits console.session.limit (console.pending ++ [line]) ∧
        ∃ out after, console.session.process console.debug (sourceOf (console.pending ++ [line])) =
            (out, after) ∧ after.Formed ∧ after.limit = console.session.limit ∧
          console.submit line = .ok ⟨out, some ⟨after, console.debug, []⟩⟩) := by
  cases read : Grammar.read console.session.limit (sourceOf (console.pending ++ [line])) with
  | error error =>
      refine .inl ⟨error, ?_, overlong_of_error read⟩
      rw [sourceOf] at read
      simp only [submit, read]
  | ok reading =>
      refine .inr ?_
      have waits := awaits_iff read
      have source := read
      rw [sourceOf] at source
      by_cases awaits : Awaits console.session.limit (console.pending ++ [line])
      · rcases waits.mp awaits with ⟨unfinished, filled⟩
        exact .inl ⟨awaits, submit_unfinished source unfinished filled⟩
      · have going : (reading.unfinished && decide (Text.trim line ≠ "")) = false := by
          rw [waits] at awaits
          simpa using awaits
        refine .inr ⟨awaits, ?_⟩
        rcases reading with ⟨statements, diagnostics⟩
        cases diagnostics with
        | cons diagnostic others =>
            refine ⟨_, _, Session.process_of_reported _ read (List.cons_ne_nil _ _), formed, rfl, ?_⟩
            simp only [submit, source, going, errorsText_eq, Bool.false_eq_true, if_false,
              List.isEmpty_cons, Bool.not_false, if_true]
        | nil =>
            rcases Session.present_of_clean formed console.debug read with
              ⟨value, presented, after, limit⟩
            refine ⟨_, _, rfl, after, limit, ?_⟩
            rw [sourceOf] at presented
            simp only [submit, source, going, Bool.false_eq_true, if_false, List.isEmpty_nil,
              Bool.not_true, Reading.program, presented]
            rfl

def Folded (console : Console) (entries : List Entry) : Prop :=
  ∃ chunks pending rest,
    Partition console.session.limit (console.pending.map .line ++ entries) chunks pending rest ∧
    ((∃ farewell unread shown, Ending pending rest farewell unread ∧
        console.exchange entries = .ok ⟨shown, unread.length⟩ ∧
        waitingTurns console.pending ++ shown = turns chunks
          (console.session.processAll console.debug (chunks.map sourceOf)).1 pending farewell ∧
        console.sessionAfter entries =
          (console.session.processAll console.debug (chunks.map sourceOf)).2) ∨
      ∃ line unread error, rest = .line line :: unread ∧ Overlong (pending ++ [line]) ∧
        console.exchange entries = .error (.badInteger error))

theorem exchange_ended {console : Console} {entries unread : List Entry} {farewell : String}
    (ending : Ending console.pending entries farewell unread) :
    console.exchange entries = .ok ⟨[(console.prompt, farewell)], unread.length⟩ ∧
      console.sessionAfter entries = console.session := by
  rcases console with ⟨session, debug, pending⟩
  cases ending with
  | @leave line leaving _ =>
      have fed : feed ⟨session, debug, []⟩ (.line line) = .ok ⟨"", none⟩ := by
        rw [feed, (leaves_iff line).mpr leaving]
        rfl
      rw [exchange, sessionAfter, fed]
      exact ⟨rfl, rfl⟩
  | interrupt => exact ⟨rfl, rfl⟩
  | finish => exact ⟨rfl, rfl⟩
  | ended => exact ⟨rfl, rfl⟩

theorem folded_of_ending {console : Console} {entries unread : List Entry} {farewell : String}
    (gathered : Gathered console.session.limit console.pending)
    (ending : Ending console.pending entries farewell unread) : console.Folded entries := by
  rcases exchange_ended ending with ⟨exchanged, same⟩
  refine ⟨[], console.pending, entries, ⟨rfl, by simp, gathered⟩,
    .inl ⟨farewell, unread, _, ending, exchanged, ?_, same⟩⟩
  rw [prompt_eq]
  rfl

/-- What a turn shows is shown first, and the exchange goes on from the next console. -/
theorem exchange_next {console next : Console} {entry : Entry} {out : String} (entries : List Entry)
    (fed : console.feed entry = .ok ⟨out, some next⟩) :
    console.exchange (entry :: entries) = (next.exchange entries).map (fun transcript =>
      ⟨(console.prompt, out) :: transcript.turns, transcript.unread⟩) ∧
      console.sessionAfter (entry :: entries) = next.sessionAfter entries := by
  have step : console.exchange (entry :: entries) = (do
      let rest ← next.exchange entries
      return ⟨(console.prompt, out) :: rest.turns, rest.unread⟩) := by
    rw [exchange, fed]
    rfl
  rw [step, sessionAfter, fed]
  exact ⟨by cases next.exchange entries <;> rfl, rfl⟩

theorem folded_after_wait {console : Console} {line : String} {entries : List Entry}
    (fed : console.feed (.line line) =
      .ok ⟨"", some { console with pending := console.pending ++ [line] }⟩)
    (folded : Folded { console with pending := console.pending ++ [line] } entries) :
    console.Folded (.line line :: entries) := by
  rcases exchange_next entries fed with ⟨exchanged, session⟩
  rcases folded with ⟨chunks, pending, rest, partition, outcome⟩
  refine ⟨chunks, pending, rest, ⟨?_, partition.chunks, partition.pending⟩, ?_⟩
  · rw [← partition.entries]
    simp
  rcases outcome with ⟨farewell, unread, shown, ending, result, shows, after⟩ |
    ⟨other, unread, error, shape, long, result⟩
  · refine .inl ⟨farewell, unread, (console.prompt, "") :: shown, ending, ?_, ?_, ?_⟩
    · rw [exchanged, result]
      rfl
    · rw [waitingTurns_concat] at shows
      rw [← shows, prompt_eq, List.append_assoc]
      rfl
    · rw [session, after]
  · refine .inr ⟨other, unread, error, shape, long, ?_⟩
    rw [exchanged, result]
    rfl

theorem folded_after_chunk {console : Console} {line out : String} {after : Session}
    {entries : List Entry} (chunk : Chunk console.session.limit (console.pending ++ [line]))
    (processed : console.session.process console.debug (sourceOf (console.pending ++ [line])) =
      (out, after)) (limit : after.limit = console.session.limit)
    (fed : console.feed (.line line) = .ok ⟨out, some ⟨after, console.debug, []⟩⟩)
    (folded : Folded ⟨after, console.debug, []⟩ entries) : console.Folded (.line line :: entries) := by
  rcases exchange_next entries fed with ⟨exchanged, session⟩
  rcases folded with ⟨chunks, pending, rest, partition, outcome⟩
  have all : console.session.processAll console.debug
      (((console.pending ++ [line]) :: chunks).map sourceOf) =
        (out :: (after.processAll console.debug (chunks.map sourceOf)).1,
          (after.processAll console.debug (chunks.map sourceOf)).2) := by
    rw [List.map_cons, Session.processAll, processed]
  refine ⟨(console.pending ++ [line]) :: chunks, pending, rest, ⟨?_, ?_, ?_⟩, ?_⟩
  · have entered := partition.entries
    simp only [List.map_nil, List.nil_append] at entered
    rw [entered]
    simp
  · rw [← limit] at chunk ⊢
    exact List.forall_mem_cons.mpr ⟨chunk, partition.chunks⟩
  · rw [← limit]
    exact partition.pending
  rw [all]
  rcases outcome with ⟨farewell, unread, shown, ending, result, shows, last⟩ |
    ⟨other, unread, error, shape, long, result⟩
  · refine .inl ⟨farewell, unread, (console.prompt, out) :: shown, ending, ?_, ?_, ?_⟩
    · rw [exchanged, result]
      rfl
    · have begun : waitingTurns [] ++ shown = shown := rfl
      rw [begun] at shows
      rw [shows, turns, turns, List.zipWith_cons_cons, List.flatten_cons, chunkTurns_concat, prompt_eq]
      simp
    · rw [session, last]
  · refine .inr ⟨other, unread, error, shape, long, ?_⟩
    rw [exchanged, result]
    rfl

theorem exchange_folded {console : Console} (entries : List Entry)
    (formed : console.session.Formed)
    (gathered : Gathered console.session.limit console.pending) : console.Folded entries := by
  induction entries generalizing console with
  | nil => exact folded_of_ending gathered (.ended _)
  | cons entry entries ih =>
      cases entry with
      | interrupt => exact folded_of_ending gathered (.interrupt _ entries)
      | finish => exact folded_of_ending gathered (.finish _ entries)
      | line line =>
          by_cases leaving : console.pending = [] ∧ Leaves line
          · have ending : Ending console.pending (.line line :: entries) "" entries := by
              rw [leaving.1]
              exact .leave leaving.2 entries
            exact folded_of_ending gathered ending
          have fed : console.feed (.line line) = console.submit line := by
            rw [feed, if_neg]
            simpa [leaves_iff] using leaving
          have enters : console.pending = [] → ¬ Leaves line := fun none leaves => leaving ⟨none, leaves⟩
          rcases submit_cases formed line with ⟨error, failed, long⟩ | ⟨awaits, kept⟩ |
            ⟨whole, out, after, processed, formed, limit, done⟩
          · refine ⟨[], console.pending, .line line :: entries, ⟨rfl, by simp, gathered⟩,
              .inr ⟨line, entries, error, rfl, long, ?_⟩⟩
            rw [exchange, fed, failed]
            rfl
          · exact folded_after_wait (fed.trans kept) (ih formed (gathered.concat enters awaits))
          · exact folded_after_chunk (gathered.chunk enters whole) processed limit (fed.trans done)
              (ih formed .nil)

/-- The lines that the console reads, up to the one that leaves it, an interruption or the end, fall into
chunks and lines that still wait. What is shown, and the session in the end, are those of processing the
chunks in order; unless reading breaks off at an integer literal of more than 4300 digits. -/
theorem exchange_folds_chunks (limit : Nat) (debug : Bool) (entries : List Entry) :
    ∃ chunks pending rest, Partition limit entries chunks pending rest ∧
      ((∃ farewell unread, Ending pending rest farewell unread ∧
          (start (.fresh limit) debug).exchange entries = .ok ⟨turns chunks
            ((Session.fresh limit).processAll debug (chunks.map sourceOf)).1 pending farewell,
            unread.length⟩ ∧
          (start (.fresh limit) debug).sessionAfter entries =
            ((Session.fresh limit).processAll debug (chunks.map sourceOf)).2) ∨
        ∃ line unread error, rest = .line line :: unread ∧ Overlong (pending ++ [line]) ∧
          (start (.fresh limit) debug).exchange entries = .error (.badInteger error)) := by
  have formed : (start (.fresh limit) debug).session.Formed := Session.fresh_formed limit
  rcases exchange_folded entries formed .nil with ⟨chunks, pending, rest, partition, outcome⟩
  refine ⟨chunks, pending, rest, partition, ?_⟩
  rcases outcome with ⟨farewell, unread, shown, ending, result, shows, after⟩ | broken
  · have begun : waitingTurns [] ++ shown = shown := rfl
    change waitingTurns [] ++ shown = turns chunks
      ((Session.fresh limit).processAll debug (chunks.map sourceOf)).1 pending farewell at shows
    rw [begun] at shows
    rw [shows] at result
    exact .inl ⟨farewell, unread, ending, result, after⟩
  · exact .inr broken

/-- Two lines make a chunk; a line that waits is not processed when the input ends. -/
example : (start .new false).exchange [.line "if (true) \x7b", .line "1 \x7d", .line "[2"] =
    .ok ⟨[(">> ", ""), (".. ", "1\n"), (">> ", ""), (".. ", "\n")], 0⟩ := by rfl

end Console

end Marmoset
