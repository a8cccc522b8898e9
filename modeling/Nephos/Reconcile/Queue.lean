import Mathlib.Algebra.Order.Ring.Int
import Mathlib.Data.Finset.Card
import Mathlib.Data.List.AList
import Nephos.Library.Transition
import Nephos.Reconcile.World

/-!
# The queue of a controller

What holds of the two tables of a controller after any sequence of calls of
their functions, whatever the order in which a map is visited.
-/

namespace Nephos

open Transition

inductive QueueEvent where
  | enqueue (id : ID)
  /-- `pop` with its result, which is empty if nothing is pending. -/
  | pop (id : ID)
  | retry (id : ID) (recorded : Bool)
  | clearRetry (id : ID)
  | enqueueDueRetries (order : List ID)
deriving DecidableEq, Repr

structure QueueMoment where
  now : Int
  event : QueueEvent
deriving DecidableEq, Repr

/-- A queue and the last reading of the clock. -/
structure TimedQueue where
  clock : Int
  queue : Queue

inductive QueueStep (queue : Queue) (now : Int) :
    QueueEvent → Queue → Prop where
  | enqueue (id : ID) : QueueStep queue now (.enqueue id) (queue.enqueue id)
  | popNothing : queue.pending = ∅ → QueueStep queue now (.pop "") queue
  | pop {id : ID} : id ∈ queue.pending →
      QueueStep queue now (.pop id) (queue.pop id)
  | retry (id : ID) :
      QueueStep queue now (.retry id !queue.refuses id) (queue.retry now id)
  | clearRetry (id : ID) :
      QueueStep queue now (.clearRetry id) (queue.clearRetry id)
  | enqueueDueRetries {order : List ID} : order.Perm queue.retries.keys →
      QueueStep queue now (.enqueueDueRetries order)
        (queue.enqueueDueRetries now order)

/-- All sequences of operations with a clock that does not go back. -/
def queueSystem : System TimedQueue QueueMoment where
  Initial timed := timed.queue = .empty
  Step timed moment next :=
    timed.clock ≤ moment.now ∧ next.clock = moment.now ∧
      QueueStep timed.queue moment.now moment.event next.queue

/-- The retries of an id since it was last cleared, counted further. -/
def tally (counted : Bool → Bool) (id : ID) (count : Nat)
    (moment : QueueMoment) : Nat :=
  match moment.event with
  | .retry other recorded =>
      if other = id ∧ counted recorded then count + 1 else count
  | .clearRetry other => if other = id then 0 else count
  | _ => count

/-- The retries of an id since it was last cleared that were recorded. -/
def recordedRetries (id : ID) (history : List QueueMoment) : Nat :=
  history.foldl (tally (fun recorded => recorded) id) 0

/-- The retries of an id since it was last cleared, refused ones too. -/
def calledRetries (id : ID) (history : List QueueMoment) : Nat :=
  history.foldl (tally (fun _ => true) id) 0

namespace Queue

variable {queue : Queue} {now : Int} {id other : ID}

/-- Both tables are within the limit. -/
def Bounded (queue : Queue) : Prop :=
  queue.pending.card ≤ queueLimit ∧ queue.retries.keys.length ≤ queueLimit

theorem length_keys_insert_of_mem {entry : RetryEntry}
    (member : id ∈ queue.retries) :
    (queue.retries.insert id entry).keys.length =
      queue.retries.keys.length := by
  have listed := AList.mem_keys.mp member
  rw [AList.keys_insert, List.length_cons, List.length_erase_of_mem listed]
  have positive := List.length_pos_of_mem listed
  omega

theorem length_keys_insert_le {entry : RetryEntry} :
    (queue.retries.insert id entry).keys.length ≤
      queue.retries.keys.length + 1 := by
  rw [AList.keys_insert, List.length_cons]
  exact Nat.succ_le_succ List.length_erase_le

theorem card_insert_of_lt (room : queue.pending.card < queueLimit) :
    (insert id queue.pending).card ≤ queueLimit :=
  (Finset.card_insert_le id queue.pending).trans room

theorem mem_of_attempt (tried : (queue.entry id).attempt ≠ 0) :
    id ∈ queue.retries := by
  rw [← AList.lookup_isSome]
  unfold entry at tried
  cases found : queue.retries.lookup id with
  | none =>
      rw [found] at tried
      exact absurd rfl tried
  | some entry => rfl

theorem refuses_eq_false_iff :
    queue.refuses id = false ↔
      queue.retries.keys.length < queueLimit ∨
        (queue.entry id).attempt ≠ 0 := by
  rw [refuses, Bool.and_eq_false_iff, decide_eq_false_iff_not, not_le,
    beq_eq_false_iff_ne]

theorem bounded_retry (bounded : queue.Bounded) :
    (queue.retry now id).Bounded := by
  unfold retry
  split
  · exact bounded
  · rename_i accepted
    rw [Bool.not_eq_true, refuses_eq_false_iff] at accepted
    refine ⟨bounded.1, ?_⟩
    rcases accepted with room | tried
    · exact length_keys_insert_le.trans room
    · exact (length_keys_insert_of_mem (mem_of_attempt tried)).trans_le
        bounded.2

theorem bounded_visit (bounded : queue.Bounded) :
    (queue.visit now id).Bounded := by
  unfold visit
  split
  · exact bounded
  · rename_i entry found
    split
    · rename_i moves
      have member : id ∈ queue.retries := by
        rw [← AList.lookup_isSome, found]
        rfl
      exact ⟨card_insert_of_lt moves.2,
        (length_keys_insert_of_mem member).trans_le bounded.2⟩
    · exact bounded

theorem bounded_enqueueDueRetries {order : List ID}
    (bounded : queue.Bounded) :
    (queue.enqueueDueRetries now order).Bounded := by
  unfold enqueueDueRetries
  induction order generalizing queue with
  | nil => exact bounded
  | cons first order induction => exact induction (bounded_visit bounded)

end Queue

theorem QueueStep.bounded {queue next : Queue} {now : Int}
    {event : QueueEvent} (bounded : queue.Bounded)
    (step : QueueStep queue now event next) : next.Bounded := by
  cases step with
  | enqueue id =>
      unfold Queue.enqueue
      split
      · exact bounded
      · split
        · exact ⟨Queue.card_insert_of_lt ‹_›, bounded.2⟩
        · exact bounded
  | popNothing => exact bounded
  | pop member =>
      exact ⟨(Finset.card_erase_le).trans bounded.1, bounded.2⟩
  | retry id => exact Queue.bounded_retry bounded
  | clearRetry id =>
      refine ⟨bounded.1, ?_⟩
      rw [Queue.clearRetry, AList.keys_erase]
      exact List.length_erase_le.trans bounded.2
  | enqueueDueRetries => exact Queue.bounded_enqueueDueRetries bounded

theorem int64_of_small {number : Int} (low : -2 ^ 63 ≤ number)
    (high : number < 2 ^ 63) : int64 number = number := by
  unfold int64
  rw [Int.bmod_eq_of_le] <;> omega

namespace Queue

variable {queue : Queue} {now : Int} {id other : ID}

/-- The loop doubles the delay up to the maximum. -/
theorem backoff_eq (left : Nat) {delay : Int} (positive : 0 < delay)
    (bounded : delay ≤ retryMax) :
    backoff left delay = min retryMax (delay * 2 ^ left) := by
  induction left generalizing delay with
  | zero =>
      rw [backoff, pow_zero, mul_one, min_eq_right bounded]
  | succ left induction =>
      have power : (0 : Int) < 2 ^ left := pow_pos (by decide) left
      rw [backoff, pow_succ', ← mul_assoc]
      by_cases more : delay < retryMax
      · have exact : int64 (delay * 2) = delay * 2 := by
          unfold retryMax at more
          exact int64_of_small (by omega) (by omega)
        rw [if_pos more, exact]
        dsimp only
        by_cases above : retryMax < delay * 2
        · rw [if_pos above, induction (by decide) le_rfl]
          have first : retryMax ≤ retryMax * 2 ^ left :=
            le_mul_of_one_le_right (by decide) power
          have second : retryMax ≤ delay * 2 * 2 ^ left :=
            first.trans (mul_le_mul_of_nonneg_right above.le power.le)
          rw [min_eq_left first, min_eq_left second]
        · rw [if_neg above, induction (by omega) (not_lt.mp above)]
      · have equal : delay = retryMax := le_antisymm bounded (not_lt.mp more)
        have grows : (1 : Int) ≤ 2 * 2 ^ left := by omega
        rw [if_neg more, equal, min_eq_left]
        rw [mul_assoc]
        exact le_mul_of_one_le_right (by decide) grows

/-- The entry of an id with a number of recorded retries. -/
def Remembers (queue : Queue) (id : ID) (count : Nat) : Prop :=
  match queue.retries.lookup id with
  | none => count = 0
  | some entry => 0 < count ∧ entry.attempt = int64 count

theorem Remembers.of_lookup {count : Nat} {next : Queue}
    (remembers : queue.Remembers id count)
    (same : next.retries.lookup id = queue.retries.lookup id) :
    next.Remembers id count := by
  unfold Remembers at remembers ⊢
  rw [same]
  exact remembers

theorem Remembers.mem_iff {count : Nat} (remembers : queue.Remembers id count) :
    id ∈ queue.retries ↔ 0 < count := by
  rw [← AList.lookup_isSome]
  unfold Remembers at remembers
  cases found : queue.retries.lookup id with
  | none =>
      rw [found] at remembers
      simp [show count = 0 from remembers]
  | some entry =>
      rw [found] at remembers
      simp [remembers.1]

theorem Remembers.attempt {count : Nat}
    (remembers : queue.Remembers id count) :
    (queue.entry id).attempt = int64 count := by
  unfold Remembers at remembers
  unfold entry
  cases found : queue.retries.lookup id with
  | none =>
      rw [found] at remembers
      simp [show count = 0 from remembers, int64]
  | some entry =>
      rw [found] at remembers
      exact remembers.2

/-- A retry that is not refused is recorded with the next number. -/
theorem Remembers.lookup_retry {count : Nat}
    (remembers : queue.Remembers id count)
    (accepted : queue.refuses id = false) :
    (queue.retry now id).retries.lookup id =
      some { attempt := int64 (count + 1 : Nat)
             due := now +
               backoff (int64 (count + 1 : Nat) - 1).toNat retryBase } := by
  have next : int64 ((queue.entry id).attempt + 1) =
      int64 (count + 1 : Nat) := by
    rw [remembers.attempt]
    simp [int64]
  unfold retry
  rw [accepted]
  simp [next, AList.lookup_insert]

theorem lookup_retry_of_ne (differ : other ≠ id) :
    (queue.retry now id).retries.lookup other =
      queue.retries.lookup other := by
  unfold retry
  split
  · rfl
  · exact AList.lookup_insert_ne differ

theorem lookup_visit_of_ne (differ : other ≠ id) :
    (queue.visit now id).retries.lookup other =
      queue.retries.lookup other := by
  unfold visit
  split
  · rfl
  · split
    · exact AList.lookup_insert_ne differ
    · rfl

theorem Remembers.visit {count : Nat} (remembers : queue.Remembers id count) :
    (queue.visit now other).Remembers id count := by
  by_cases differ : id = other
  · cases differ
    unfold Queue.visit
    split
    · exact remembers
    · rename_i entry found
      split
      · unfold Remembers at remembers ⊢
        rw [found] at remembers
        simp only [AList.lookup_insert]
        exact remembers
      · exact remembers
  · exact remembers.of_lookup (lookup_visit_of_ne differ)

theorem Remembers.enqueueDueRetries {count : Nat} {order : List ID}
    (remembers : queue.Remembers id count) :
    (queue.enqueueDueRetries now order).Remembers id count := by
  unfold Queue.enqueueDueRetries
  induction order generalizing queue with
  | nil => exact remembers
  | cons first order induction => exact induction remembers.visit

end Queue

theorem QueueStep.remembers {queue next : Queue} {now : Int}
    {event : QueueEvent} {id : ID} {count : Nat}
    (remembers : queue.Remembers id count)
    (step : QueueStep queue now event next) :
    next.Remembers id
      (tally (fun recorded => recorded) id count ⟨now, event⟩) := by
  cases step with
  | enqueue other =>
      refine remembers.of_lookup ?_
      unfold Queue.enqueue
      split
      · rfl
      · split
        · rfl
        · rfl
  | popNothing => exact remembers
  | pop member => exact remembers
  | retry other =>
      by_cases same : other = id
      · cases same
        cases refused : queue.refuses id with
        | true =>
            have unchanged : queue.retry now id = queue := if_pos refused
            simpa [tally, unchanged] using remembers
        | false =>
            simp only [tally, Bool.not_false, and_self, if_true]
            unfold Queue.Remembers
            rw [remembers.lookup_retry refused]
            dsimp only
            exact ⟨Nat.succ_pos count, rfl⟩
      · have unchanged : tally (fun recorded => recorded) id count
            ⟨now, .retry other !queue.refuses other⟩ = count :=
          if_neg fun both => same both.1
        rw [unchanged]
        exact remembers.of_lookup (Queue.lookup_retry_of_ne (Ne.symm same))
  | clearRetry other =>
      by_cases same : other = id
      · cases same
        simp only [tally, if_true]
        unfold Queue.Remembers Queue.clearRetry
        rw [AList.lookup_erase]
      · simp only [tally, if_neg same]
        exact remembers.of_lookup (AList.lookup_erase_ne (Ne.symm same))
  | enqueueDueRetries => exact remembers.enqueueDueRetries

/-- What holds of a queue after any sequence of operations. -/
theorem queueSystem_run {start timed : TimedQueue} {history : List QueueMoment}
    {id : ID} {count : Nat} (run : queueSystem.Run start history timed)
    (bounded : start.queue.Bounded)
    (remembers : start.queue.Remembers id count) :
    timed.queue.Bounded ∧ timed.queue.Remembers id
      (history.foldl (tally (fun recorded => recorded) id) count) := by
  induction run generalizing count with
  | nil state => exact ⟨bounded, remembers⟩
  | cons step _ induction =>
      exact induction (step.2.2.bounded bounded)
        (step.2.2.remembers remembers)

namespace Queue

variable {queue : Queue} {now : Int} {id other : ID} {order : List ID}

theorem pending_subset_visit :
    queue.pending ⊆ (queue.visit now id).pending := by
  unfold visit
  split
  · exact Finset.Subset.refl _
  · split
    · exact Finset.subset_insert _ _
    · exact Finset.Subset.refl _

theorem pending_subset_enqueueDueRetries :
    queue.pending ⊆ (queue.enqueueDueRetries now order).pending := by
  unfold enqueueDueRetries
  induction order generalizing queue with
  | nil => exact Finset.Subset.refl _
  | cons first order induction =>
      exact pending_subset_visit.trans induction

theorem lookup_enqueueDueRetries_of_not_mem (absent : id ∉ order) :
    (queue.enqueueDueRetries now order).retries.lookup id =
      queue.retries.lookup id := by
  unfold enqueueDueRetries
  induction order generalizing queue with
  | nil => rfl
  | cons first order induction =>
      rw [List.mem_cons, not_or] at absent
      rw [List.foldl_cons, induction absent.2, lookup_visit_of_ne absent.1]

/-- Every due id becomes pending, or pending is full and the id stays due. -/
theorem enqueueDueRetries_due {entry : RetryEntry} (bounded : queue.Bounded)
    (visited : order.Perm queue.retries.keys)
    (found : queue.retries.lookup id = some entry) (due : entry.due ≤ now) :
    (id ∈ (queue.enqueueDueRetries now order).pending ∧
        (queue.enqueueDueRetries now order).retries.lookup id =
          some { entry with due := now + retryMax }) ∨
      ((queue.enqueueDueRetries now order).pending.card = queueLimit ∧
        (queue.enqueueDueRetries now order).retries.lookup id =
          some entry) := by
  have member : id ∈ order := by
    rw [visited.mem_iff, ← AList.mem_keys, ← AList.lookup_isSome, found]
    rfl
  have distinct : order.Nodup := visited.nodup_iff.mpr queue.retries.keys_nodup
  obtain ⟨front, back, rfl⟩ := List.append_of_mem member
  have parts := List.nodup_append.mp distinct
  have notBefore : id ∉ front := fun before =>
    parts.2.2 id before id List.mem_cons_self rfl
  have notAfter : id ∉ back := (List.nodup_cons.mp parts.2.1).1
  -- The visit of the id comes between two parts that leave its entry alone.
  let middle := queue.enqueueDueRetries now front
  have whole : queue.enqueueDueRetries now (front ++ id :: back) =
      (middle.visit now id).enqueueDueRetries now back := by
    simp only [enqueueDueRetries, List.foldl_append, List.foldl_cons, middle]
  have before : middle.retries.lookup id = some entry :=
    (lookup_enqueueDueRetries_of_not_mem notBefore).trans found
  have full := (bounded_enqueueDueRetries bounded
    : (queue.enqueueDueRetries now (front ++ id :: back)).Bounded).1
  rw [whole] at full ⊢
  rw [lookup_enqueueDueRetries_of_not_mem notAfter]
  by_cases room : middle.pending.card < queueLimit
  · have moved : middle.visit now id =
        { pending := insert id middle.pending
          retries := middle.retries.insert id
            { entry with due := now + retryMax } } := by
      simp only [visit, before, due, room, and_self, if_true]
    left
    refine ⟨pending_subset_enqueueDueRetries ?_, ?_⟩
    · rw [moved]
      exact Finset.mem_insert_self id middle.pending
    · rw [moved, AList.lookup_insert]
  · have stays : middle.visit now id = middle := by
      simp only [visit, before, room, and_false, if_false]
    right
    rw [stays] at full ⊢
    refine ⟨le_antisymm full ((not_lt.mp room).trans ?_), before⟩
    exact Finset.card_le_card pending_subset_enqueueDueRetries

end Queue

/-- Both tables stay within their limit, and the retries are the ids with
recorded failures.  The recorded retry number `k` of an id since it was last
cleared is due after `retryBase` doubled `k - 1` times, at most `retryMax`; an
id in the table is not refused; a due id becomes pending, or pending is full
and it stays due. -/
theorem queue_discipline (start timed : TimedQueue) (history : List QueueMoment)
    (initial : queueSystem.Initial start)
    (run : queueSystem.Run start history timed) :
    timed.queue.pending.card ≤ queueLimit ∧
      timed.queue.retries.keys.length ≤ queueLimit ∧
      (∀ id, id ∈ timed.queue.retries ↔ 0 < recordedRetries id history) ∧
      (∀ now id, recordedRetries id history + 1 < 2 ^ 63 →
        (timed.queue.refuses id = false →
          (timed.queue.retry now id).retries.lookup id =
            some { attempt := recordedRetries id history + 1
                   due := now + min retryMax
                     (retryBase * 2 ^ recordedRetries id history) }) ∧
          (id ∈ timed.queue.retries → timed.queue.refuses id = false)) ∧
      (∀ now order id entry, order.Perm timed.queue.retries.keys →
        timed.queue.retries.lookup id = some entry → entry.due ≤ now →
        (id ∈ (timed.queue.enqueueDueRetries now order).pending ∧
            (timed.queue.enqueueDueRetries now order).retries.lookup id =
              some { entry with due := now + retryMax }) ∨
          ((timed.queue.enqueueDueRetries now order).pending.card =
              queueLimit ∧
            (timed.queue.enqueueDueRetries now order).retries.lookup id =
              some entry)) := by
  have initial : start.queue = .empty := initial
  have bounded : start.queue.Bounded := by
    rw [initial]
    exact ⟨Nat.zero_le _, Nat.zero_le _⟩
  have remembers (id : ID) : timed.queue.Bounded ∧
      timed.queue.Remembers id (recordedRetries id history) := by
    refine queueSystem_run run bounded ?_
    rw [initial]
    rfl
  have sizes := (remembers "").1
  refine ⟨sizes.1, sizes.2, fun id => (remembers id).2.mem_iff, ?_, ?_⟩
  · intro now id few
    obtain ⟨-, counted⟩ := remembers id
    refine ⟨fun accepted => ?_, fun member => ?_⟩
    · have small : int64 (recordedRetries id history + 1 : Nat) =
          (recordedRetries id history : Int) + 1 := by
        rw [int64_of_small (by omega) (by omega)]
        rfl
      rw [counted.lookup_retry accepted, small, add_sub_cancel_right,
        Int.toNat_natCast, Queue.backoff_eq _ (by decide) (by decide)]
    · have positive := counted.mem_iff.mp member
      rw [Queue.refuses_eq_false_iff, counted.attempt,
        int64_of_small (by omega) (by omega)]
      right
      omega
  · intro now order id entry visited found due
    exact Queue.enqueueDueRetries_due sizes visited found due

/-- The second failure of a VPC in a row is due after two hundred
milliseconds. -/
theorem secondFailure_doubled :
    ((Queue.empty.retry 0 "vpc-1").retry 5 "vpc-1").retries.lookup "vpc-1" =
      some { attempt := 2, due := 5 + 2 * retryBase } := by
  have run : queueSystem.Run ⟨0, .empty⟩ [⟨0, .retry "vpc-1" true⟩]
      ⟨0, Queue.empty.retry 0 "vpc-1"⟩ :=
    .single ⟨le_rfl, rfl, .retry "vpc-1"⟩
  obtain ⟨-, -, -, retries, -⟩ :=
    queue_discipline ⟨0, .empty⟩ _ _ rfl run
  exact (retries 5 "vpc-1" (by decide)).1 (by decide)

def filler (number : Nat) : ID := String.ofList (List.replicate (number + 1) 'a')

/-- The queue after one retry of each of the first ids. -/
def filled : Nat → Queue
  | 0 => .empty
  | number + 1 => (filled number).retry 0 (filler number)

def filling (number : Nat) : List QueueMoment :=
  (List.range number).map fun index => ⟨0, .retry (filler index) true⟩

theorem filler_injective {left right : Nat}
    (same : filler left = filler right) : left = right := by
  have lengths := congrArg (fun id : String => id.toList.length) same
  simpa [filler] using lengths

theorem filled_retries {number : Nat} (fits : number ≤ queueLimit) :
    (filled number).retries.keys.length = number ∧
      ∀ id, id ∈ (filled number).retries ↔
        ∃ index < number, id = filler index := by
  induction number with
  | zero => simp [filled, Queue.empty]
  | succ number induction =>
      obtain ⟨length, members⟩ := induction (by omega)
      have fresh : filler number ∉ (filled number).retries := by
        intro member
        obtain ⟨index, below, same⟩ := (members _).mp member
        exact absurd (filler_injective same) (by omega)
      have accepted : (filled number).refuses (filler number) = false := by
        rw [Queue.refuses_eq_false_iff, length]
        left
        omega
      simp only [filled, Queue.retry, accepted]
      constructor
      · rw [if_neg Bool.false_ne_true, AList.keys_insert,
          List.erase_of_not_mem fresh, List.length_cons, length]
      · intro id
        rw [if_neg Bool.false_ne_true, AList.mem_insert, members]
        constructor
        · rintro (rfl | ⟨index, below, rfl⟩)
          · exact ⟨number, by omega, rfl⟩
          · exact ⟨index, by omega, rfl⟩
        · rintro ⟨index, below, rfl⟩
          rcases Nat.lt_succ_iff_lt_or_eq.mp below with below | rfl
          · exact .inr ⟨index, below, rfl⟩
          · exact .inl rfl

theorem filled_accepts {number : Nat} (fits : number < queueLimit) (id : ID) :
    (filled number).refuses id = false := by
  rw [Queue.refuses_eq_false_iff, (filled_retries fits.le).1]
  exact .inl fits

theorem filled_run {number : Nat} (fits : number ≤ queueLimit) :
    queueSystem.Run ⟨0, .empty⟩ (filling number) ⟨0, filled number⟩ := by
  induction number with
  | zero => exact .nil _
  | succ number induction =>
      rw [filling, List.range_succ, List.map_append]
      refine (induction (by omega)).append (.single ⟨le_rfl, rfl, ?_⟩)
      have step : QueueStep (filled number) 0
          (.retry (filler number) !(filled number).refuses (filler number))
          (filled (number + 1)) :=
        .retry (filler number)
      rw [filled_accepts (by omega)] at step
      exact step

theorem filler_ne_x (number : Nat) : filler number ≠ "x" := by
  intro same
  have chars := congrArg String.toList same
  simp [filler, List.replicate_succ] at chars

theorem tally_filling {counted : Bool → Bool} (number count : Nat) :
    (filling number).foldl (tally counted "x") count = count := by
  induction number with
  | zero => rfl
  | succ number induction =>
      rw [filling, List.range_succ, List.map_append, List.foldl_append]
      rw [filling] at induction
      rw [induction]
      exact if_neg fun both => filler_ne_x number both.1

theorem Queue.remembers_zero {queue : Queue} {id : ID}
    (absent : id ∉ queue.retries) : queue.Remembers id 0 := by
  unfold Queue.Remembers
  rw [AList.lookup_eq_none.mpr absent]

/-- When the table is full, a first retry is refused; after another id is
cleared, the second is recorded as the first. -/
theorem fullQueue_run {full : Queue} {history : List QueueMoment}
    {id other : ID}
    (run : queueSystem.Run ⟨0, .empty⟩ history ⟨0, full⟩)
    (length : full.retries.keys.length = queueLimit)
    (absent : id ∉ full.retries) (present : other ∈ full.retries) :
    queueSystem.Run ⟨0, .empty⟩
        (history ++ [⟨0, .retry id false⟩, ⟨0, .clearRetry other⟩])
        ⟨0, full.clearRetry other⟩ ∧
      (full.clearRetry other).refuses id = false ∧
      (full.clearRetry other).Remembers id 0 := by
  have refused : full.refuses id = true := by
    rw [Queue.refuses, length, (Queue.remembers_zero absent).attempt]
    decide
  have ignored : QueueStep full 0 (.retry id false) full := by
    have step : QueueStep full 0 (.retry id !full.refuses id)
        (full.retry 0 id) := .retry id
    rw [refused, Queue.retry, if_pos refused] at step
    exact step
  have room : (full.clearRetry other).retries.keys.length < queueLimit := by
    rw [Queue.clearRetry, AList.keys_erase,
      List.length_erase_of_mem (AList.mem_keys.mp present), length]
    decide
  have cleared : queueSystem.Run ⟨0, full⟩ [⟨0, .clearRetry other⟩]
      ⟨0, full.clearRetry other⟩ :=
    .single ⟨le_rfl, rfl, .clearRetry other⟩
  refine ⟨run.append (.cons ⟨le_rfl, rfl, ignored⟩ cleared),
    Queue.refuses_eq_false_iff.mpr (.inl room), Queue.remembers_zero ?_⟩
  exact fun member => absent (AList.mem_erase.mp member).2

/-- The table is full, so a first retry is refused; when there is room again,
the second retry is recorded with the delay of the first. -/
theorem refusedRetry_not_counted :
    ∃ history timed, queueSystem.Run ⟨0, .empty⟩ history timed ∧
      calledRetries "x" history + 1 = 2 ∧ timed.queue.refuses "x" = false ∧
      (timed.queue.retry 0 "x").retries.lookup "x" =
        some { attempt := 1, due := 0 + retryBase } ∧
      0 + retryBase ≠ 0 + min retryMax (retryBase * 2 ^ (2 - 1)) := by
  obtain ⟨number, limit⟩ : ∃ number, number = queueLimit := ⟨_, rfl⟩
  have fits : number ≤ queueLimit := limit.le
  obtain ⟨length, members⟩ := filled_retries fits
  have absent : "x" ∉ (filled number).retries := by
    rw [members]
    rintro ⟨index, -, same⟩
    exact filler_ne_x index same.symm
  have present : filler 0 ∈ (filled number).retries :=
    (members _).mpr ⟨0, by rw [limit]; decide, rfl⟩
  obtain ⟨run, accepted, remembers⟩ :=
    fullQueue_run (filled_run fits) (length.trans limit) absent present
  refine ⟨_, _, run, ?_, accepted, ?_, by decide⟩
  · rw [calledRetries, List.foldl_append, tally_filling]
    decide
  · rw [remembers.lookup_retry accepted]
    decide

end Nephos
