import Nephos.EventLog
import Nephos.Library.Cursor

/-!
# The event stream

`GetEvents` polls the event log from a cursor and writes what it finds.  A
client may lose its connection at any moment, and with it the events that
were read or written but not received, and comes back with the number of the
last event it received.
-/

namespace Nephos

open Transaction Transition.System

/-- A handler between two of its steps: the events of the last poll that it
has still to write, and those that it wrote and the client has not received
yet. -/
structure Connection where
  cursor : Int
  events : List Event
  inFlight : List Event

/-- A client of the event stream, with the database that it follows. -/
structure Stream where
  store : Store
  start : Int
  connection : Option Connection
  received : List Event

/-- The most events that one poll reads. -/
def pollLimit : Nat := 100

/-- The cursor of a new connection, by its `Last-Event-ID`. -/
def startCursor (lastEventID : Option Int) : Except Failure Int :=
  match lastEventID with
  | none => .ok 0
  | some parsed =>
      if parsed < 0 then
        .error (.other "Last-Event-ID must be a nonnegative integer")
      else .ok parsed

namespace Stream

/-- The events that the client is to receive. -/
def committed (stream : Stream) : List Event :=
  Cursor.after Event.id stream.start stream.store.events

/-- The `Last-Event-ID` of the client's next request.  A client that has
received nothing repeats its first request, which has no such header when it
starts from zero. -/
def lastEventID (stream : Stream) : Option Int :=
  match stream.received.getLast? with
  | some event => some event.id
  | none => if stream.start = 0 then none else some stream.start

end Stream

inductive StreamLabel where
  | commit (write : Write)
  | connect
  | fetch
  | idle
  | write
  | receive
  | disconnect

/-- The steps of the handler and of a connection that does not fail. -/
def StreamLabel.Delivers : StreamLabel → Prop
  | .fetch | .idle | .write | .receive => True
  | .commit _ | .connect | .disconnect => False

/-- A poll that finds nothing waits for the next tick. -/
def StreamLabel.waits : StreamLabel → Bool
  | .idle => true
  | _ => false

inductive Stream.Step : Stream → StreamLabel → Stream → Prop where
  | commit {stream : Stream} (write : Write) :
      Step stream (.commit write)
        { stream with store := write.apply stream.store }
  | connect {stream : Stream} {cursor : Int} :
      stream.connection = none →
      startCursor stream.lastEventID = .ok cursor →
      Step stream .connect
        { stream with connection := some ⟨cursor, [], []⟩ }
  | fetch {stream : Stream} {cursor : Int} {inFlight : List Event}
      {event : Event} {events : List Event} :
      stream.connection = some ⟨cursor, [], inFlight⟩ →
      stream.store.eventsAfter cursor pollLimit = .ok (event :: events) →
      Step stream .fetch
        { stream with connection := some ⟨cursor, event :: events, inFlight⟩ }
  | idle {stream : Stream} {cursor : Int} {inFlight : List Event} :
      stream.connection = some ⟨cursor, [], inFlight⟩ →
      stream.store.eventsAfter cursor pollLimit = .ok [] →
      Step stream .idle stream
  | write {stream : Stream} {cursor : Int} {inFlight : List Event}
      {event : Event} {events : List Event} :
      stream.connection = some ⟨cursor, event :: events, inFlight⟩ →
      Step stream .write
        { stream with
          connection := some ⟨event.id, events, inFlight ++ [event]⟩ }
  | receive {stream : Stream} {cursor : Int} {inFlight : List Event}
      {event : Event} {events : List Event} :
      stream.connection = some ⟨cursor, events, event :: inFlight⟩ →
      Step stream .receive
        { stream with
          connection := some ⟨cursor, events, inFlight⟩
          received := stream.received ++ [event] }
  | disconnect {stream : Stream} :
      Step stream .disconnect { stream with connection := none }

/-- One client of the event stream beside all writers of the database. -/
def eventStream : Transition.System Stream StreamLabel where
  Initial stream := stream.store = .empty ∧ 0 ≤ stream.start ∧
    stream.connection = none ∧ stream.received = []
  Step := Stream.Step

theorem Edit.log_cases (store : Store) (edit : Edit) :
    ((edit.apply store).events = store.events ∧
      (edit.apply store).eventSequence = store.eventSequence) ∨
    ∃ event : Event, event.id = store.eventSequence + 1 ∧
      (edit.apply store).events = store.events ++ [event] ∧
      (edit.apply store).eventSequence = store.eventSequence + 1 := by
  cases edit with
  | setRuntimeID row runtimeID => exact .inl ⟨rfl, rfl⟩
  | saveReplay record => exact .inl ⟨rfl, rfl⟩
  | _ => exact .inr ⟨_, rfl, rfl, rfl⟩

theorem edits_run_log {store final : Store} {labels : List Edit}
    (run : edits.Run store labels final) (numbered : store.Numbered) :
    store.events <+: final.events ∧ final.Numbered := by
  induction run with
  | nil state => exact ⟨List.prefix_rfl, numbered⟩
  | @cons state middle final edit labels step _ induction =>
      obtain ⟨-, rfl⟩ := step
      rcases edit.log_cases state with
        ⟨events, sequence⟩ | ⟨event, number, appended, sequence⟩
      · rw [← events]
        exact induction (numbered.same events sequence)
      · obtain ⟨grows, kept⟩ :=
          induction (numbered.append number appended sequence)
        rw [appended] at grows
        exact ⟨(List.prefix_append _ _).trans grows, kept⟩

theorem Write.log {store : Store} (sound : store.Sound)
    (numbered : store.Numbered) (write : Write) :
    store.events <+: (write.apply store).events ∧
      (write.apply store).Sound ∧ (write.apply store).Numbered := by
  obtain ⟨labels, run, -⟩ := write.edited sound.keyed
  obtain ⟨grows, kept⟩ := edits_run_log run numbered
  exact ⟨grows, edits_run_sound run sound, kept⟩

namespace Stream

/-- The events on their way to the client. -/
def underway (stream : Stream) : List Event :=
  match stream.connection with
  | none => []
  | some connection => connection.inFlight ++ connection.events

/-- The stream carries the committed events one after the other, and the
cursor of a connection stands behind the last event written to it. -/
structure InOrder (stream : Stream) : Prop where
  sound : stream.store.Sound
  numbered : stream.store.Numbered
  start : 0 ≤ stream.start
  ordered : stream.received ++ stream.underway <+: stream.committed
  cursor : ∀ connection, stream.connection = some connection →
    connection.cursor = Cursor.position Event.id stream.start
      (stream.received ++ connection.inFlight)

variable {stream next : Stream}

theorem InOrder.increasing (inOrder : stream.InOrder) :
    Cursor.Increasing Event.id stream.store.events :=
  inOrder.numbered.increasing

theorem InOrder.received_prefix (inOrder : stream.InOrder) :
    stream.received <+: stream.committed :=
  (List.prefix_append _ _).trans inOrder.ordered

/-- The position of a reader of the stream is never negative. -/
theorem InOrder.position_nonneg (inOrder : stream.InOrder)
    {read : List Event} (isRead : read <+: stream.committed) :
    0 ≤ Cursor.position Event.id stream.start read :=
  inOrder.start.trans (Cursor.start_le_position isRead)

/-- A new connection goes on behind the last event received. -/
theorem InOrder.startCursor_eq (inOrder : stream.InOrder) :
    startCursor stream.lastEventID =
      .ok (Cursor.position Event.id stream.start stream.received) := by
  have bound := inOrder.position_nonneg inOrder.received_prefix
  unfold lastEventID Cursor.position at *
  cases last : stream.received.getLast? with
  | some event =>
      rw [last] at bound
      simpa [startCursor] using bound
  | none =>
      by_cases zero : stream.start = 0
      · simp [zero, startCursor]
      · simpa [zero, startCursor] using inOrder.start

/-- A poll reads the first of the events that were not written yet. -/
theorem InOrder.poll (inOrder : stream.InOrder) {cursor : Int}
    {inFlight : List Event}
    (opened : stream.connection = some ⟨cursor, [], inFlight⟩) :
    ∃ rest, stream.committed = stream.received ++ inFlight ++ rest ∧
      stream.store.eventsAfter cursor pollLimit =
        .ok (rest.take pollLimit) := by
  obtain ⟨rest, split⟩ := inOrder.ordered
  simp only [underway, opened, List.append_nil] at split
  refine ⟨rest, split.symm, ?_⟩
  have position : cursor = Cursor.position Event.id stream.start
      (stream.received ++ inFlight) := inOrder.cursor _ opened
  have unread := Cursor.after_position inOrder.increasing split.symm
  rw [← position] at unread
  have sorted : rest.Pairwise fun left right => left.id ≤ right.id := by
    rw [← unread]
    exact (inOrder.increasing.after cursor).imp fun less => less.le
  have positive : 0 ≤ cursor :=
    position ▸ inOrder.position_nonneg (split ▸ List.prefix_append _ _)
  rw [Store.eventsAfter, if_neg (by simp [pollLimit]; omega)]
  rw [Cursor.after] at unread
  rw [unread, sorted.insertionSort_eq]

/-- Every step keeps the stream in order. -/
theorem InOrder.step (inOrder : stream.InOrder) {label : StreamLabel}
    (step : stream.Step label next) : next.InOrder := by
  have ordered := inOrder.ordered
  cases step with
  | commit write =>
      obtain ⟨grows, sound, numbered⟩ :=
        write.log inOrder.sound inOrder.numbered
      exact { inOrder with
        sound, numbered
        ordered := ordered.trans (grows.filter _) }
  | connect closed opened =>
      rw [inOrder.startCursor_eq] at opened
      cases opened
      refine { inOrder with ordered := ?_, cursor := ?_ }
      · simpa [underway, committed] using inOrder.received_prefix
      · rintro connection ⟨⟩
        simp
  | @fetch _ inFlight event events opened read =>
      obtain ⟨rest, split, polled⟩ := inOrder.poll opened
      rw [polled, Except.ok.injEq] at read
      refine { inOrder with ordered := ?_, cursor := ?_ }
      · refine ⟨rest.drop pollLimit, ?_⟩
        calc stream.received ++ (inFlight ++ event :: events) ++
              rest.drop pollLimit
            = stream.received ++ inFlight ++
                (rest.take pollLimit ++ rest.drop pollLimit) := by
              simp [read]
          _ = stream.committed := by rw [List.take_append_drop, split]
      · rintro connection ⟨⟩
        simpa using inOrder.cursor _ opened
  | idle opened read => exact inOrder
  | write opened =>
      refine { inOrder with ordered := ?_, cursor := ?_ }
      · simpa [underway, committed, opened] using ordered
      · rintro connection ⟨⟩
        simp [← List.append_assoc]
  | receive opened =>
      refine { inOrder with ordered := ?_, cursor := ?_ }
      · simpa [underway, committed, opened] using ordered
      · rintro connection ⟨⟩
        simpa using inOrder.cursor _ opened
  | disconnect =>
      refine { inOrder with ordered := ?_, cursor := by simp }
      simpa [underway, committed] using inOrder.received_prefix

theorem reachable_inOrder (reachable : eventStream.Reachable stream) :
    stream.InOrder := by
  apply reachable.invariant InOrder
  · rintro state ⟨store, start, closed, nothing⟩
    refine ⟨?_, ?_, start, ?_, ?_⟩
    · rw [store]
      exact ⟨.empty, .empty⟩
    · rw [store]
      exact .empty
    · simp [nothing, underway, closed]
    · simp [closed]
  · intro state label next inOrder step
    exact inOrder.step step

/-- The steps that the undelivered events still take: each is fetched,
written and received. -/
def remaining (stream : Stream) : Nat :=
  let left := stream.committed.length - stream.received.length
  match stream.connection with
  | none => 3 * left
  | some connection =>
      3 * (left - connection.inFlight.length - connection.events.length) +
        2 * connection.events.length + connection.inFlight.length

theorem InOrder.lengths (inOrder : stream.InOrder) {connection : Connection}
    (opened : stream.connection = some connection) :
    stream.received.length + connection.inFlight.length +
      connection.events.length ≤ stream.committed.length := by
  have bound := inOrder.ordered.length_le
  simp only [underway, opened, List.length_append] at bound
  omega

theorem InOrder.remaining_le (inOrder : stream.InOrder) :
    stream.remaining ≤ 3 * stream.committed.length := by
  unfold remaining
  cases connected : stream.connection with
  | none => simp only; omega
  | some connection =>
      have bound := inOrder.lengths connected
      simp only
      omega

/-- A step of an open connection brings the stream nearer to its end, unless
it only waits. -/
theorem InOrder.remaining_step (inOrder : stream.InOrder)
    {label : StreamLabel} (delivers : label.Delivers)
    (step : stream.Step label next) :
    next.store = stream.store ∧ next.start = stream.start ∧
      next.remaining + (if label.waits then 0 else 1) ≤ stream.remaining := by
  have following := inOrder.step step
  cases step with
  | commit | connect | disconnect => exact delivers.elim
  | idle => exact ⟨rfl, rfl, le_refl _⟩
  | fetch opened read =>
      have bound := following.lengths rfl
      refine ⟨rfl, rfl, ?_⟩
      simp only [remaining, committed, opened, StreamLabel.waits,
        Bool.false_eq_true, if_false,
        List.length_cons, List.length_nil] at bound ⊢
      omega
  | write opened =>
      have bound := following.lengths rfl
      refine ⟨rfl, rfl, ?_⟩
      simp only [remaining, committed, opened, StreamLabel.waits,
        Bool.false_eq_true, if_false,
        List.length_cons, List.length_append, List.length_nil] at bound ⊢
      omega
  | receive opened =>
      have bound := following.lengths rfl
      refine ⟨rfl, rfl, ?_⟩
      simp only [remaining, committed, opened, StreamLabel.waits,
        Bool.false_eq_true, if_false,
        List.length_cons, List.length_append, List.length_nil] at bound ⊢
      omega

/-- A connection on which nothing is left to do has delivered everything. -/
theorem InOrder.complete (inOrder : stream.InOrder)
    (opened : stream.connection ≠ none)
    (stuck : ∀ label next, label.Delivers → label.waits = false →
      ¬ stream.Step label next) :
    stream.received = stream.committed := by
  cases connected : stream.connection with
  | none => exact absurd connected opened
  | some connection =>
      obtain ⟨cursor, events, inFlight⟩ := connection
      cases events with
      | cons event events =>
          exact absurd (.write connected) (stuck .write _ trivial rfl)
      | nil =>
          cases inFlight with
          | cons event inFlight =>
              exact absurd (.receive connected) (stuck .receive _ trivial rfl)
          | nil =>
              obtain ⟨rest, split, polled⟩ := inOrder.poll connected
              cases rest with
              | nil => simpa using split.symm
              | cons event rest =>
                  exact absurd (.fetch connected polled)
                    (stuck .fetch _ trivial rfl)

theorem Step.stays_open {label : StreamLabel} (delivers : label.Delivers)
    (step : stream.Step label next) (opened : stream.connection ≠ none) :
    next.connection ≠ none := by
  cases step with
  | commit | connect | disconnect => exact delivers.elim
  | idle => exact opened
  | fetch | write | receive => simp

theorem InOrder.deliver {final : Stream} {labels : List StreamLabel}
    (run : eventStream.Run stream labels final) (inOrder : stream.InOrder)
    (opened : stream.connection ≠ none)
    (delivers : ∀ label ∈ labels, label.Delivers) :
    final.InOrder ∧ final.connection ≠ none ∧
      final.committed = stream.committed ∧
      final.remaining + (labels.filter (!·.waits)).length ≤
        stream.remaining := by
  induction run with
  | nil state => exact ⟨inOrder, opened, rfl, by simp⟩
  | @cons state middle final label labels step _ induction =>
      rw [List.forall_mem_cons] at delivers
      obtain ⟨kept, stays, same, bound⟩ := induction (inOrder.step step)
        (step.stays_open delivers.1 opened) delivers.2
      obtain ⟨store, start, nearer⟩ :=
        inOrder.remaining_step delivers.1 step
      refine ⟨kept, stays, ?_, ?_⟩
      · rw [same, committed, store, start]
        rfl
      · cases waits : label.waits <;> simp [waits] at nearer ⊢ <;> omega

end Stream

/-- The events that a client receives over all its connections are the first
of the events committed above its initial cursor, in their order.  From any
moment on, a connection that goes on without a failure and without further
commits takes only finitely many steps apart from waiting, and when none is
left the client has received every event. -/
theorem eventStream_exactly_once {stream : Stream}
    (reachable : eventStream.Reachable stream) :
    stream.received <+: stream.committed ∧
      (stream.received.Pairwise fun left right => left.id < right.id) ∧
      (stream.connection ≠ none → ∀ labels final,
        eventStream.Run stream labels final →
        (∀ label ∈ labels, label.Delivers) →
        (labels.filter (!·.waits)).length ≤ 3 * stream.committed.length ∧
          ((∀ label next, label.Delivers → label.waits = false →
              ¬ final.Step label next) →
            final.received = stream.committed)) := by
  have inOrder := Stream.reachable_inOrder reachable
  refine ⟨inOrder.received_prefix, ?_, ?_⟩
  · exact (inOrder.increasing.after stream.start).sublist
      inOrder.received_prefix.sublist
  · intro opened labels final run delivers
    obtain ⟨kept, stays, same, bound⟩ := inOrder.deliver run opened delivers
    constructor
    · have total : stream.remaining ≤ 3 * stream.committed.length :=
        inOrder.remaining_le
      omega
    · intro stuck
      rw [← same]
      exact kept.complete stays stuck

/-- A client connects after the first requests, loses its connection with an
event in flight, and gets that event over the next connection. -/
theorem firstStore_stream :
    ∃ (stream : Stream) (first second : Event), stream.store = firstStore ∧
      stream.connection ≠ none ∧ stream.received = [first, second] ∧
      first.id < second.id ∧ stream.received <+: stream.committed := by
  have commits (stream : Stream) (writes : List Write) :
      eventStream.Run stream (writes.map .commit)
        { stream with store := writes.foldl Write.apply stream.store } := by
    induction writes generalizing stream with
    | nil => exact .nil stream
    | cons write writes induction => exact .cons (.commit write) (induction _)
  have begins : eventStream.Reachable ⟨.empty, 0, none, []⟩ :=
    .initial ⟨rfl, Int.le_refl 0, rfl, rfl⟩
  have committed : eventStream.Reachable ⟨firstStore, 0, none, []⟩ := by
    unfold firstStore
    exact begins.run (commits _ firstRequests)
  have ids : firstStore.events.map Event.id = [1, 2, 3] := by decide +kernel
  obtain ⟨a, rest, events, first, ids⟩ := List.map_eq_cons_iff.mp ids
  obtain ⟨b, rest, rfl, second, ids⟩ := List.map_eq_cons_iff.mp ids
  obtain ⟨c, rfl, third⟩ := List.map_eq_singleton_iff.mp ids
  have whole : firstStore.eventsAfter 0 pollLimit = .ok [a, b, c] := by
    simp [Store.eventsAfter, pollLimit, events, first, second, third]
  have later : firstStore.eventsAfter a.id pollLimit = .ok [b, c] := by
    simp [Store.eventsAfter, pollLimit, events, first, second, third]
  have onward {stream next : Stream} {label : StreamLabel}
      (reachable : eventStream.Reachable stream)
      (step : stream.Step label next) : eventStream.Reachable next :=
    reachable.step step
  have resumes : startCursor (some a.id) = .ok a.id := by
    rw [first]
    rfl
  have received := onward (onward (onward (onward committed
    (.connect rfl rfl)) (.fetch rfl whole)) (.write rfl)) (.receive rfl)
  have lost := onward (onward received (.write rfl)) .disconnect
  have delivered := onward (onward (onward (onward lost
    (.connect rfl resumes)) (.fetch rfl later)) (.write rfl)) (.receive rfl)
  obtain ⟨isPrefix, increasing, -⟩ := eventStream_exactly_once delivered
  exact ⟨_, a, b, rfl, Option.some_ne_none _, rfl,
    (List.pairwise_cons.mp increasing).1 b (List.mem_singleton_self b),
    isPrefix⟩

end Nephos
