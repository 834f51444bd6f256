import Mathlib.Data.List.Nodup
import CopyTrial.Proofs.Log.Lines
import CopyTrial.Proofs.Log.Means
import CopyTrial.Proofs.Log.TraceId
import CopyTrial.Proofs.Machine.Files

/-!
# What an emitter has been asked

An emitter is asked for trace ids and to write entries, in any order. Each request brings about at
most one further id and at most one further line, and the state of the emitter never holds more
than this: how many ids there have been, and the log of the entries. So the ids of a whole history
are numbered from 1 without a gap, and its lines are those of its entries.

## Main definitions

* `Emitter.Request`, `Emitter.performAll` — a request, and a sequence of them.
* `Emitter.Effect`, `Emitter.Request.Brings` — what a request brings about.
* `Emitter.Accounts` — how a log and the ids that were given out belong to a history.

## Main results

* `Emitter.run_perform` — what one request does to an emitter.
* `Emitter.run_performAll` — what a sequence of requests does to an emitter.
* `Emitter.accounts_performAll` — what there is of a history in the end.
-/

set_option autoImplicit false

namespace CopyTrial

/-- Between the line feeds of a log stand the lines of its entries, and nothing after the last
one. -/
theorem splitOn_logText (entries : List Entry) :
    (logText entries).toList.splitOn '\n' =
      (entries.map Entry.line).map String.toList ++ [[]] := by
  rw [logText, String.toList_ofList]
  induction entries with
  | nil => rfl
  | cons entry entries ih =>
    rw [List.map_cons, List.flatMap_cons, List.append_assoc, List.singleton_append,
      Text.splitOn_append_cons entry.not_mem_line.1, ih]
    rfl

/-- Making an entry takes a reading of the wall clock. -/
theorem Entry.run_now (machine : Machine) (id : String) (level : Level) (event : String) :
    (Entry.now id level event : StateM Machine Entry) machine =
      ({ timestamp := (machine.wall machine.wallReadings).timestamp, traceId := id, level, event },
        machine.readClocks (machine.wallReadings + 1) machine.tickReadings) := rfl

namespace Emitter

/-! ## Requests -/

/-- What an emitter can be asked. -/
inductive Request where
  | nextTraceId
  | emit (level : Level) (event : String)
  | emitEntry (entry : Entry)

/-- What an emitter answers. -/
inductive Reply where
  | traceId (id : String)
  | written (entry : Entry)
  | done

section

variable {m : Type → Type} [Monad m] [Host m]

/-- Does what is asked. -/
def perform (e : Emitter) : Request → ExceptT IoError m (Reply × Emitter)
  | .nextTraceId => do
    let (id, e) := e.nextTraceId
    pure (.traceId id, e)
  | .emit level event => do
    let (entry, e) ← e.emit level event
    pure (.written entry, e)
  | .emitEntry entry => do
    let e ← e.emitEntry entry
    pure (.done, e)

/-- Does what is asked, one request after the other. -/
def performAll (e : Emitter) : List Request → ExceptT IoError m (List Reply × Emitter)
  | [] => pure ([], e)
  | request :: rest => do
    let (reply, e) ← e.perform request
    let (replies, e) ← performAll e rest
    pure (reply :: replies, e)

end

/-- A request whose entry, if it has one, can be logged. -/
def Request.Loggable : Request → Prop
  | .nextTraceId => True
  | .emit .. => True
  | .emitEntry entry => entry.Loggable

/-! ## What requests bring about -/

/-- What comes of a request: the id that is generated for it, the entry whose line it adds to the
log, and the answer. -/
structure Effect where
  generated : Option String
  written : Option Entry
  reply : Reply

/-- What a request of an emitter with a given suite brings about, for some id and some moment. An
entry is written as it is given, except that an empty trace id is replaced by a generated one and
that a suite is added where there is none. -/
inductive Request.Brings (suite : String) : Request → Effect → Prop
  | nextTraceId (id : String) : Brings suite .nextTraceId ⟨some id, none, .traceId id⟩
  | emit (level : Level) (event id timestamp : String) {entry : Entry}
      (h : entry = { timestamp, traceId := id, level, event, suite := some suite }) :
      Brings suite (.emit level event) ⟨some id, some entry, .written entry⟩
  | numbered {entry : Entry} (id : String) (h : entry.traceId = "") :
      Brings suite (.emitEntry entry)
        ⟨some id, some { entry with traceId := id, suite := entry.suite.or (some suite) }, .done⟩
  | own {entry : Entry} (h : entry.traceId ≠ "") :
      Brings suite (.emitEntry entry)
        ⟨none, some { entry with suite := entry.suite.or (some suite) }, .done⟩

/-- An entry that is written can be logged, if the one that was given can. -/
theorem Request.Brings.loggable_written {suite : String} {request : Request} {effect : Effect}
    (h : request.Brings suite effect) (hrequest : request.Loggable) :
    ∀ entry ∈ effect.written, entry.Loggable := by
  intro entry hentry
  cases h with
  | nextTraceId => cases hentry
  | emit level event id timestamp h =>
    obtain rfl := Option.some.inj hentry
    subst h
    exact nofun
  | numbered =>
    obtain rfl := Option.some.inj hentry
    exact hrequest
  | own =>
    obtain rfl := Option.some.inj hentry
    exact hrequest

/-- The entries that are written can be logged, if those that were given can. -/
theorem loggable_of_brings {suite : String} {requests : List Request} {effects : List Effect}
    (hbrings : List.Forall₂ (Request.Brings suite) requests effects)
    (h : ∀ request ∈ requests, request.Loggable) :
    ∀ entry ∈ effects.filterMap Effect.written, entry.Loggable := by
  induction hbrings with
  | nil => simp
  | cons hbrings _ ih =>
    obtain ⟨hrequest, hrest⟩ := List.forall_mem_cons.1 h
    intro entry hentry
    obtain ⟨effect, hmem, hwritten⟩ := List.mem_filterMap.1 hentry
    rcases List.mem_cons.1 hmem with rfl | hmem
    · exact hbrings.loggable_written hrequest entry hwritten
    · exact ih hrest entry (List.mem_filterMap.2 ⟨effect, hmem, hwritten⟩)

/-- How the ids that were given out and the log belong to the requests of a new emitter: the ids
are numbered from 1 without a gap, none is given out twice, and each line of the log, up to the
last line feed, is read as the entry that was written. -/
structure Accounts (suite runId : String) (requests : List Request) (effects : List Effect)
    (text : String) : Prop where
  brings : List.Forall₂ (Request.Brings suite) requests effects
  numbered : ∀ k id, (effects.filterMap Effect.generated)[k]? = some id →
    id = suite ++ "::" ++ runId ++ "::" ++ Numeral.padded 3 (k + 1)
  distinct : (effects.filterMap Effect.generated).Nodup
  lines : ∃ lines : List String, text.toList.splitOn '\n' = lines.map String.toList ++ [[]] ∧
    lines.map Entry.codec.parse = (effects.filterMap Effect.written).map .ok

/-! ## One request -/

section

variable (machine : Machine) (suite runId : String) (number : Nat) (logged : List Entry)

/-- An entry is added as a line to a log in memory. -/
theorem run_writeLine_memory (entry : Entry) :
    machine.run (writeLine ⟨suite, runId, number, .memory (logText logged)⟩ entry) =
      (.ok ⟨suite, runId, number, .memory (logText (logged ++ [entry]))⟩, machine) := by
  rw [logText_append_singleton]
  rfl

/-- An entry with a trace id of its own is added to a log in memory, and no id is generated. -/
theorem run_emitEntry_memory {entry : Entry} (hid : entry.traceId ≠ "") :
    machine.run (emitEntry ⟨suite, runId, number, .memory (logText logged)⟩ entry) =
      (.ok ⟨suite, runId, number, .memory
        (logText (logged ++ [{ entry with suite := entry.suite.or (some suite) }]))⟩, machine) := by
  rw [emitEntry, complete, if_neg hid]
  exact run_writeLine_memory machine suite runId number logged _

/-- An entry that has only a level and an event gets the next id and the present moment, and is
added to a log in memory. -/
theorem run_emit_memory (level : Level) (event : String) :
    ∃ (entry : Entry) (timestamp : String) (after : Machine),
      entry = { timestamp, traceId := traceId suite runId (number + 1), level, event
                suite := some suite } ∧
      machine.run (emit ⟨suite, runId, number, .memory (logText logged)⟩ level event) =
        (.ok (entry, ⟨suite, runId, number + 1, .memory (logText (logged ++ [entry]))⟩), after) := by
  refine ⟨_, (machine.wall machine.wallReadings).timestamp,
    machine.readClocks (machine.wallReadings + 1) machine.tickReadings, rfl, ?_⟩
  rw [emit, nextTraceId,
    Machine.run_bind_lift (Entry.run_now machine (traceId suite runId (number + 1)) level event)]
  exact Machine.run_bind_of_ok (run_writeLine_memory _ suite runId (number + 1) logged _) _

/-- **What one request does to an emitter** that keeps its log in memory: the id that is generated,
if there is one, has the next number, and the entry that is written, if there is one, is added to
the log. -/
theorem run_perform (request : Request) :
    ∃ effect after, request.Brings suite effect ∧
      effect.generated.toList =
        (List.range' (number + 1) effect.generated.toList.length).map (traceId suite runId) ∧
      machine.run (perform ⟨suite, runId, number, .memory (logText logged)⟩ request) =
        (.ok (effect.reply, ⟨suite, runId, number + effect.generated.toList.length,
          .memory (logText (logged ++ effect.written.toList))⟩), after) := by
  cases request with
  | nextTraceId =>
    refine ⟨_, machine, .nextTraceId (traceId suite runId (number + 1)), rfl, ?_⟩
    rw [Option.toList_none, List.append_nil]
    rfl
  | emit level event =>
    obtain ⟨entry, timestamp, after, hentry, hrun⟩ :=
      run_emit_memory machine suite runId number logged level event
    refine ⟨_, after, .emit level event (traceId suite runId (number + 1)) timestamp hentry, rfl,
      ?_⟩
    exact Machine.run_bind_of_ok hrun _
  | emitEntry entry =>
    by_cases hid : entry.traceId = ""
    · refine ⟨_, machine, .numbered (traceId suite runId (number + 1)) hid, rfl, ?_⟩
      rw [perform, emitEntry, complete, if_pos hid]
      exact Machine.run_bind_of_ok
        (run_writeLine_memory machine suite runId (number + 1) logged _) _
    · refine ⟨_, machine, .own hid, rfl, ?_⟩
      exact Machine.run_bind_of_ok (run_emitEntry_memory machine suite runId number logged hid) _

end

/-! ## A sequence of requests -/

/-- **What a sequence of requests does to an emitter** that keeps its log in memory: the ids that
are generated go on from the last number, and the entries that are written are added to the log.

**Proof sketch.** Induction on the requests. The first one leaves an emitter of the same kind to
the others, with its id counted and its entry in the log. -/
theorem run_performAll (suite runId : String) (requests : List Request) (machine : Machine)
    (number : Nat) (logged : List Entry) :
    ∃ effects after, List.Forall₂ (Request.Brings suite) requests effects ∧
      effects.filterMap Effect.generated =
        (List.range' (number + 1) (effects.filterMap Effect.generated).length).map
          (traceId suite runId) ∧
      machine.run (performAll ⟨suite, runId, number, .memory (logText logged)⟩ requests) =
        (.ok (effects.map Effect.reply,
          ⟨suite, runId, number + (effects.filterMap Effect.generated).length,
            .memory (logText (logged ++ effects.filterMap Effect.written))⟩), after) := by
  induction requests generalizing machine number logged with
  | nil =>
    refine ⟨[], machine, .nil, rfl, ?_⟩
    rw [List.filterMap_nil, List.filterMap_nil, List.append_nil]
    rfl
  | cons request rest ih =>
    obtain ⟨effect, between, hbrings, hid, hstep⟩ :=
      run_perform machine suite runId number logged request
    obtain ⟨effects, after, hrest, hids, hrun⟩ :=
      ih between (number + effect.generated.toList.length) (logged ++ effect.written.toList)
    have hcons : ∀ {α : Type} (f : Effect → Option α),
        (effect :: effects).filterMap f = (f effect).toList ++ effects.filterMap f := by
      intro α f
      rw [List.filterMap_eq_flatMap_toList, List.flatMap_cons, ← List.filterMap_eq_flatMap_toList]
    refine ⟨effect :: effects, after, .cons hbrings hrest, ?_, ?_⟩
    · rw [hcons, List.length_append, ← List.range'_append_1, List.map_append, ← hid,
        Nat.add_right_comm, ← hids]
    · rw [performAll, Machine.run_bind_of_ok hstep, Machine.run_bind_of_ok hrun, hcons, hcons,
        List.length_append, ← Nat.add_assoc, ← List.append_assoc]
      rfl

/-- **What there is of a history in the end.** Whatever a new emitter that keeps its log in memory
is asked, it does without an error. The ids that it generates are numbered from 1 on, three digits
or more, and differ from each other; the log holds one line for each entry that was to be written,
in that order, and each line is read as its entry.

**Proof sketch.** The log is the lines of the entries that were written, in which no line feed
stands, and a line is read as its entry if the details of the entry survive being written. -/
theorem accounts_performAll (suite runId : String) {requests : List Request}
    (h : ∀ request ∈ requests, request.Loggable) (machine : Machine) :
    ∃ effects e text after,
      machine.run (performAll (ofMemory suite runId) requests) =
        (.ok (effects.map Effect.reply, e), after) ∧
      e.buffered = some text ∧ Accounts suite runId requests effects text := by
  obtain ⟨effects, after, hbrings, hids, hrun⟩ :=
    run_performAll suite runId requests machine 0 []
  have hloggable := loggable_of_brings hbrings h
  refine ⟨effects, _, logText (effects.filterMap Effect.written), after, hrun, rfl, hbrings, ?_,
    ?_, (effects.filterMap Effect.written).map Entry.line, splitOn_logText _, ?_⟩
  · intro k id hk
    rw [hids, List.getElem?_map, Option.map_eq_some_iff] at hk
    obtain ⟨n, hn, rfl⟩ := hk
    obtain ⟨hlt, rfl⟩ := List.getElem?_eq_some_iff.1 hn
    rw [List.getElem_range', Nat.one_mul, Nat.zero_add, Nat.add_comm 1, traceId]
  · rw [hids]
    exact List.Nodup.map (traceId_injective suite runId) (List.nodup_range' 1)
  · rw [List.map_map]
    refine List.map_congr_left fun entry hentry => ?_
    rw [Function.comp_apply, Entry.parse_line (hloggable entry hentry)]

/-- Requests of every kind, with an own trace id between two numbered entries, with details, and
with line feeds in texts. -/
def mixedRequests : List Request :=
  [.nextTraceId, .emit .warn "one\ntwo",
    .emitEntry
      { timestamp := "", traceId := "own\n", level := .info, event := "\"\r\n"
        details := some (detailsOf [("a\nb", .array [.text "\n", .boolean true])]) },
    .emitEntry { timestamp := "", traceId := "", level := .error, event := "", suite := some "s" }]

/-- The theorem on requests of every kind. -/
theorem accounts_performAll_mixed :
    (∀ request ∈ mixedRequests, request.Loggable) ∧ ∃ effects e text after,
      ({} : Machine).run (performAll (ofMemory "a\nb" "::") mixedRequests) =
        (.ok (effects.map Effect.reply, e), after) ∧
      e.buffered = some text ∧ Accounts "a\nb" "::" mixedRequests effects text := by
  have hloggable : ∀ request ∈ mixedRequests, request.Loggable := by
    simp only [mixedRequests, List.forall_mem_cons]
    refine ⟨trivial, trivial, ?_, nofun, by simp⟩
    intro v hv
    obtain rfl := Option.some.inj hv
    exact ⟨nofun, ⟨⟨trivial, trivial, trivial⟩, trivial⟩, by decide⟩
  exact ⟨hloggable, accounts_performAll "a\nb" "::" hloggable {}⟩

end Emitter

end CopyTrial
