import Mathlib.Data.List.Basic
import Mathlib.Data.List.Nodup

/-!
# Atomic transactions over tables

A transaction reads and writes a private copy of the state and may fail.
`commit` publishes the copy of a transaction that succeeds and keeps the old
state of one that fails.  The inversion rules say what a successful run of
each construct must have done; proofs about transactions take a run apart
with them and never unfold the monad.

Tables are lists of rows.  A column is a key of a table when no two of its
rows agree on it.
-/

namespace Transaction

abbrev Tx (σ ε α : Type) := StateT σ (Except ε) α

variable {σ ε α β : Type}

/-- Run to the end, or not at all. -/
def commit (body : Tx σ ε α) (state : σ) : Except ε α × σ :=
  match body state with
  | .ok (value, final) => (.ok value, final)
  | .error failure => (.error failure, state)

/-- A constraint that aborts the transaction. -/
def ensure (holds : Prop) [Decidable holds] (failure : ε) : Tx σ ε Unit :=
  if holds then pure () else throw failure

/-- The loop over the rows of a query. -/
def each (body : α → Tx σ ε Unit) : List α → Tx σ ε Unit
  | [] => pure ()
  | item :: items => do
      body item
      each body items

section Inversion

variable {state final : σ}

@[simp] theorem pure_ok_iff {value result : α} :
    (pure value : Tx σ ε α) state = .ok (result, final) ↔
      result = value ∧ final = state := by
  constructor
  · intro run
    cases run
    exact ⟨rfl, rfl⟩
  · rintro ⟨rfl, rfl⟩
    rfl

@[simp] theorem bind_ok_iff {first : Tx σ ε α} {rest : α → Tx σ ε β} {result : β} :
    (first >>= rest) state = .ok (result, final) ↔
      ∃ value middle, first state = .ok (value, middle) ∧
        rest value middle = .ok (result, final) := by
  change (first state >>= fun pair => rest pair.1 pair.2) = _ ↔ _
  cases first state with
  | error failure =>
      constructor
      · intro run
        cases run
      · rintro ⟨value, middle, impossible, -⟩
        cases impossible
  | ok pair =>
      obtain ⟨value, middle⟩ := pair
      constructor
      · intro run
        exact ⟨value, middle, rfl, run⟩
      · rintro ⟨_, _, same, run⟩
        cases same
        exact run

theorem bind_of_error {first : Tx σ ε α} {rest : α → Tx σ ε β} {failure : ε}
    (failed : first state = .error failure) :
    (first >>= rest) state = .error failure := by
  change (first state >>= fun pair => rest pair.1 pair.2) = _
  rw [failed]
  rfl

@[simp] theorem map_ok_iff {change : α → β} {body : Tx σ ε α} {result : β} :
    (change <$> body) state = .ok (result, final) ↔
      ∃ value, body state = .ok (value, final) ∧ result = change value := by
  rw [map_eq_pure_bind, bind_ok_iff]
  simp only [pure_ok_iff]
  constructor
  · rintro ⟨value, middle, run, rfl, rfl⟩
    exact ⟨value, run, rfl⟩
  · rintro ⟨value, run, rfl⟩
    exact ⟨value, final, run, rfl, rfl⟩

@[simp] theorem get_ok_iff {result : σ} :
    (get : Tx σ ε σ) state = .ok (result, final) ↔
      result = state ∧ final = state :=
  pure_ok_iff

theorem get_bind (rest : σ → Tx σ ε β) :
    (get >>= rest) state = rest state state := rfl

theorem get_bind_ok_iff {rest : σ → Tx σ ε β} {result : β} :
    (get >>= rest) state = .ok (result, final) ↔
      rest state state = .ok (result, final) :=
  Iff.rfl

@[simp] theorem modify_ok_iff {change : σ → σ} {result : Unit} :
    (modify change : Tx σ ε Unit) state = .ok (result, final) ↔
      final = change state := by
  constructor
  · intro run
    cases run
    rfl
  · rintro rfl
    rfl

@[simp] theorem throw_ok_iff {failure : ε} {result : α} :
    (throw failure : Tx σ ε α) state = .ok (result, final) ↔ False := by
  constructor
  · intro run
    cases run
  · exact False.elim

@[simp] theorem ensure_ok_iff {holds : Prop} [Decidable holds] {failure : ε}
    {result : Unit} :
    (ensure holds failure : Tx σ ε Unit) state = .ok (result, final) ↔
      holds ∧ final = state := by
  unfold ensure
  by_cases held : holds
  · rw [if_pos held, pure_ok_iff]
    exact ⟨fun run => ⟨held, run.2⟩, fun run => ⟨rfl, run.2⟩⟩
  · rw [if_neg held, throw_ok_iff]
    exact ⟨False.elim, fun run => held run.1⟩

@[simp] theorem ite_ok_iff {condition : Prop} [Decidable condition]
    {yes no : Tx σ ε α} {result : α} :
    (if condition then yes else no) state = .ok (result, final) ↔
      condition ∧ yes state = .ok (result, final) ∨
        ¬ condition ∧ no state = .ok (result, final) := by
  by_cases held : condition
  · simp [held]
  · simp [held]

@[simp] theorem each_nil_ok_iff {body : α → Tx σ ε Unit} {result : Unit} :
    each body [] state = .ok (result, final) ↔ final = state := by
  rw [each, pure_ok_iff]
  exact ⟨fun run => run.2, fun run => ⟨rfl, run⟩⟩

@[simp] theorem each_cons_ok_iff {body : α → Tx σ ε Unit} {item : α}
    {items : List α} {result : Unit} :
    each body (item :: items) state = .ok (result, final) ↔
      ∃ middle, body item state = .ok ((), middle) ∧
        each body items middle = .ok (result, final) := by
  rw [each, bind_ok_iff]
  constructor
  · rintro ⟨_, middle, first, rest⟩
    exact ⟨middle, first, rest⟩
  · rintro ⟨middle, first, rest⟩
    exact ⟨(), middle, first, rest⟩

end Inversion

section Failures

variable {state : σ} {failure : ε}

@[simp] theorem pure_error_iff {value : α} :
    (pure value : Tx σ ε α) state = .error failure ↔ False := by
  constructor
  · intro run
    cases run
  · exact False.elim

theorem bind_error_iff {first : Tx σ ε α} {rest : α → Tx σ ε β} :
    (first >>= rest) state = .error failure ↔
      first state = .error failure ∨
        ∃ value middle, first state = .ok (value, middle) ∧
          rest value middle = .error failure := by
  change (first state >>= fun pair => rest pair.1 pair.2) = _ ↔ _
  cases first state with
  | error other =>
      constructor
      · intro run
        cases run
        exact .inl rfl
      · rintro (same | ⟨value, middle, impossible, -⟩)
        · cases same
          rfl
        · cases impossible
  | ok pair =>
      obtain ⟨value, middle⟩ := pair
      constructor
      · intro run
        exact .inr ⟨value, middle, rfl, run⟩
      · rintro (impossible | ⟨_, _, same, run⟩)
        · cases impossible
        · cases same
          exact run

@[simp] theorem get_error_iff :
    (get : Tx σ ε σ) state = .error failure ↔ False :=
  pure_error_iff

@[simp] theorem modify_error_iff {change : σ → σ} :
    (modify change : Tx σ ε Unit) state = .error failure ↔ False := by
  constructor
  · intro run
    cases run
  · exact False.elim

@[simp] theorem throw_error_iff {other : ε} :
    (throw other : Tx σ ε α) state = .error failure ↔ other = failure := by
  constructor
  · intro run
    cases run
    rfl
  · rintro rfl
    rfl

@[simp] theorem ensure_error_iff {holds : Prop} [Decidable holds]
    {other : ε} :
    (ensure holds other : Tx σ ε Unit) state = .error failure ↔
      ¬ holds ∧ other = failure := by
  unfold ensure
  by_cases held : holds
  · simp [held]
  · simp [held]

theorem ite_error_iff {condition : Prop} [Decidable condition]
    {yes no : Tx σ ε α} :
    (if condition then yes else no) state = .error failure ↔
      condition ∧ yes state = .error failure ∨
        ¬ condition ∧ no state = .error failure := by
  by_cases held : condition
  · simp [held]
  · simp [held]

end Failures

/-- A run of the body fails only with errors that are `allowed`. -/
def FailsOnly (allowed : ε → Prop) (body : Tx σ ε α) (state : σ) : Prop :=
  ∀ failure, body state = .error failure → allowed failure

/-- A run of the body never fails. -/
abbrev Total (body : Tx σ ε α) (state : σ) : Prop :=
  FailsOnly (fun _ => False) body state

namespace FailsOnly

variable {allowed wider : ε → Prop} {state : σ}

theorem mono {body : Tx σ ε α} (fails : FailsOnly allowed body state)
    (implies : ∀ failure, allowed failure → wider failure) :
    FailsOnly wider body state :=
  fun failure failed => implies failure (fails failure failed)

theorem pure (value : α) :
    FailsOnly allowed (pure value : Tx σ ε α) state :=
  fun _ failed => absurd failed pure_error_iff.mp

theorem throw {failure : ε} (allows : allowed failure) :
    FailsOnly allowed (throw failure : Tx σ ε α) state :=
  fun _ failed => throw_error_iff.mp failed ▸ allows

theorem modify (change : σ → σ) :
    FailsOnly allowed (modify change : Tx σ ε Unit) state :=
  fun _ failed => absurd failed modify_error_iff.mp

theorem bind {first : Tx σ ε α} {rest : α → Tx σ ε β}
    (starts : FailsOnly allowed first state)
    (continues : ∀ {value middle}, first state = .ok (value, middle) →
      FailsOnly allowed (rest value) middle) :
    FailsOnly allowed (first >>= rest) state := by
  intro failure failed
  rcases bind_error_iff.mp failed with early | ⟨value, middle, run, late⟩
  · exact starts failure early
  · exact continues run failure late

theorem get_bind {rest : σ → Tx σ ε β}
    (continues : FailsOnly allowed (rest state) state) :
    FailsOnly allowed (get >>= rest) state :=
  continues

theorem ensure_bind {holds : Prop} [Decidable holds] {failure : ε}
    {rest : Unit → Tx σ ε β} (held : holds)
    (continues : FailsOnly allowed (rest ()) state) :
    FailsOnly allowed (ensure holds failure >>= rest) state := by
  refine bind (fun other failed => ?_) fun {value middle} run => ?_
  · exact absurd held (ensure_error_iff.mp failed).1
  · obtain ⟨-, rfl⟩ := ensure_ok_iff.mp run
    exact continues

theorem ensure {holds : Prop} [Decidable holds] {failure : ε}
    (fails : ¬ holds → allowed failure) :
    FailsOnly allowed (ensure holds failure : Tx σ ε Unit) state := by
  intro other failed
  obtain ⟨violated, rfl⟩ := ensure_error_iff.mp failed
  exact fails violated

theorem ite {condition : Prop} [Decidable condition] {yes no : Tx σ ε α}
    (holds : condition → FailsOnly allowed yes state)
    (fails : ¬ condition → FailsOnly allowed no state) :
    FailsOnly allowed (if condition then yes else no) state := by
  split
  · exact holds (by assumption)
  · exact fails (by assumption)

/-- The rule for a loop, with what holds of the items that are left. -/
theorem each {body : α → Tx σ ε Unit} (holds : List α → σ → Prop)
    (step : ∀ {item items state}, holds (item :: items) state →
      FailsOnly allowed (body item) state ∧
        ∀ {value final}, body item state = .ok (value, final) →
          holds items final)
    {items : List α} (now : holds items state) :
    FailsOnly allowed (each body items) state := by
  induction items generalizing state with
  | nil => exact pure ()
  | cons item items induction =>
      obtain ⟨fails, keeps⟩ := step now
      exact fails.bind fun run => induction (keeps run)

end FailsOnly

/-- The same for the checks before a transaction. -/
theorem except_bind_ok_iff {first : Except ε α} {rest : α → Except ε β}
    {result : β} :
    (first >>= rest) = .ok result ↔
      ∃ value, first = .ok value ∧ rest value = .ok result := by
  cases first with
  | error failure =>
      constructor
      · intro run
        cases run
      · rintro ⟨value, impossible, -⟩
        cases impossible
  | ok value =>
      constructor
      · intro run
        exact ⟨value, rfl, run⟩
      · rintro ⟨_, same, run⟩
        cases same
        exact run

variable {body : Tx σ ε α} {state final : σ}

/-- A transaction that reports an error leaves the state as it was. -/
theorem commit_error_iff {failure : ε} :
    (commit body state).1 = .error failure ↔
      body state = .error failure := by
  unfold commit
  cases body state with
  | error actual => simp
  | ok pair => simp

/-- A committed state is the old one or the result of a successful run. -/
theorem commit_cases (body : Tx σ ε α) (state : σ) :
    (∃ failure, commit body state = (.error failure, state)) ∨
      ∃ value final, body state = .ok (value, final) ∧
        commit body state = (.ok value, final) := by
  unfold commit
  cases body state with
  | error failure => exact .inl ⟨failure, rfl⟩
  | ok pair => exact .inr ⟨pair.1, pair.2, rfl, rfl⟩

section Tables

variable {Row Key : Type}

/-- `UPDATE … WHERE`. -/
def update (chosen : Row → Prop) [DecidablePred chosen]
    (change : Row → Row) (rows : List Row) : List Row :=
  rows.map fun row => if chosen row then change row else row

/-- `DELETE … WHERE`. -/
def delete (chosen : Row → Prop) [DecidablePred chosen]
    (rows : List Row) : List Row :=
  rows.filter fun row => ¬ chosen row

/-- No two rows of the table agree on the column. -/
def Unique (column : Row → Key) (rows : List Row) : Prop :=
  (rows.map column).Nodup

variable {column : Row → Key} {rows : List Row} {chosen : Row → Prop}
  [DecidablePred chosen] {change : Row → Row}

theorem Unique.eq_of_mem (unique : Unique column rows) {left right : Row}
    (leftMember : left ∈ rows) (rightMember : right ∈ rows)
    (same : column left = column right) : left = right :=
  List.inj_on_of_nodup_map unique leftMember rightMember same

theorem Unique.append_row (unique : Unique column rows) {row : Row}
    (fresh : ∀ other ∈ rows, column other ≠ column row) :
    Unique column (rows ++ [row]) := by
  unfold Unique at unique ⊢
  rw [List.map_append, List.nodup_append]
  refine ⟨unique, by simp, ?_⟩
  intro left leftMember right rightMember
  obtain ⟨other, member, rfl⟩ := List.mem_map.mp leftMember
  simp only [List.map_cons, List.map_nil, List.mem_singleton] at rightMember
  subst rightMember
  exact fresh other member

theorem Unique.delete (unique : Unique column rows) :
    Unique column (delete chosen rows) :=
  unique.sublist (List.filter_sublist.map column)

theorem mem_update_iff {row : Row} :
    row ∈ update chosen change rows ↔
      ∃ old ∈ rows, row = if chosen old then change old else old := by
  unfold update
  rw [List.mem_map]
  exact exists_congr fun old => and_congr_right fun _ => eq_comm

theorem mem_delete_iff {row : Row} :
    row ∈ delete chosen rows ↔ row ∈ rows ∧ ¬ chosen row := by
  unfold delete
  rw [List.mem_filter, decide_eq_true_iff]

/-- Only what the rows look like matters to an update. -/
theorem update_congr {other : Row → Prop} [DecidablePred other]
    {change' : Row → Row}
    (same : ∀ row ∈ rows, (if chosen row then change row else row) =
      if other row then change' row else row) :
    update chosen change rows = update other change' rows :=
  List.map_congr_left same

theorem update_eq_self
    (same : ∀ row ∈ rows, chosen row → change row = row) :
    update chosen change rows = rows := by
  unfold update
  rw [List.map_congr_left (g := id)]
  · exact List.map_id rows
  · intro row member
    by_cases selected : chosen row
    · simpa [selected] using same row member selected
    · simp [selected]

theorem delete_congr {other : Row → Prop} [DecidablePred other]
    (same : ∀ row ∈ rows, chosen row ↔ other row) :
    delete chosen rows = delete other rows := by
  unfold delete
  apply List.filter_congr
  intro row member
  simp [same row member]

/-- A selection by key finds the one row of that key. -/
theorem Unique.filter_eq_singleton (unique : Unique column rows) {row : Row}
    (member : row ∈ rows)
    (selects : ∀ other ∈ rows, chosen other ↔ column other = column row) :
    (rows.filter fun other => chosen other) = [row] := by
  have distinct : (rows.filter fun other => chosen other).Nodup :=
    (List.Nodup.of_map column unique).filter _
  apply List.perm_singleton.mp
  rw [List.perm_ext_iff_of_nodup distinct (List.nodup_singleton row)]
  intro other
  rw [List.mem_filter, decide_eq_true_iff, List.mem_singleton]
  constructor
  · rintro ⟨otherMember, held⟩
    exact unique.eq_of_mem otherMember member
      ((selects other otherMember).mp held)
  · rintro rfl
    exact ⟨member, (selects other member).mpr rfl⟩

/-- A relation between rows with different keys holds between the rows at
different places. -/
theorem Unique.pairwise (unique : Unique column rows)
    {related : Row → Row → Prop}
    (holds : ∀ left ∈ rows, ∀ right ∈ rows,
      column left ≠ column right → related left right) :
    rows.Pairwise related := by
  have distinct : rows.Pairwise fun left right =>
      column left ≠ column right := List.pairwise_map.mp unique
  exact distinct.imp_of_mem fun leftMember rightMember different =>
    holds _ leftMember _ rightMember different

end Tables

section Keyed

variable {Row Key : Type} [DecidableEq Key] {column : Row → Key}
  {rows : List Row} {row replacement : Row}

/-- The table with the row of the same key replaced. -/
def replace (column : Row → Key) (replacement : Row) (rows : List Row) :
    List Row :=
  update (fun other => column other = column replacement)
    (fun _ => replacement) rows

/-- The table without the row of the key. -/
def remove (column : Row → Key) (key : Key) (rows : List Row) : List Row :=
  delete (fun other => column other = key) rows

theorem mem_replace_iff (member : row ∈ rows)
    (same : column replacement = column row) {found : Row} :
    found ∈ replace column replacement rows ↔
      found = replacement ∨ found ∈ rows ∧ column found ≠ column row := by
  unfold replace
  rw [mem_update_iff, same]
  constructor
  · rintro ⟨old, oldMember, rfl⟩
    by_cases equal : column old = column row
    · exact .inl (if_pos equal)
    · rw [if_neg equal]
      exact .inr ⟨oldMember, equal⟩
  · rintro (rfl | ⟨oldMember, different⟩)
    · exact ⟨row, member, (if_pos rfl).symm⟩
    · exact ⟨found, oldMember, (if_neg different).symm⟩

theorem eq_of_mem_replace (member : row ∈ rows) {found : Row}
    (inside : found ∈ replace column replacement rows)
    (same : column replacement = column row)
    (key : column found = column row) : found = replacement := by
  rcases (mem_replace_iff member same).mp inside with new | ⟨-, different⟩
  · exact new
  · exact absurd key different

theorem mem_remove_iff {key : Key} {found : Row} :
    found ∈ remove column key rows ↔ found ∈ rows ∧ column found ≠ key :=
  mem_delete_iff

theorem Unique.replace (unique : Unique column rows) :
    Unique column (replace column replacement rows) := by
  unfold Transaction.replace Transaction.update
  unfold Unique at unique ⊢
  rw [List.map_map, List.map_congr_left (g := column)]
  · exact unique
  · intro other _member
    by_cases equal : column other = column replacement
    · simp [equal]
    · simp [equal]

theorem replace_self (unique : Unique column rows) (member : row ∈ rows) :
    replace column row rows = rows :=
  update_eq_self fun _ otherMember same =>
    (unique.eq_of_mem otherMember member same).symm

/-- An update that selects one key replaces the row of that key. -/
theorem update_eq_replace {chosen : Row → Prop} [DecidablePred chosen]
    {change : Row → Row} (unique : Unique column rows) (member : row ∈ rows)
    (same : column (change row) = column row)
    (selects : ∀ other ∈ rows, chosen other ↔ column other = column row) :
    update chosen change rows = replace column (change row) rows := by
  apply update_congr
  intro other otherMember
  rw [same]
  by_cases equal : column other = column row
  · rw [if_pos ((selects other otherMember).mpr equal), if_pos equal,
      unique.eq_of_mem otherMember member equal]
  · rw [if_neg fun held => equal ((selects other otherMember).mp held),
      if_neg equal]

/-- An update that can select rows of one key only selects no row, or
replaces exactly one. -/
theorem update_one_cases (unique : Unique column rows)
    (chosen : Row → Prop) [DecidablePred chosen] (change : Row → Row)
    {key : Key}
    (selects : ∀ other ∈ rows, chosen other → column other = key)
    (same : ∀ row, column (change row) = column row) :
    (rows.filter fun other => chosen other) = [] ∧
        update chosen change rows = rows ∨
      ∃ row ∈ rows, chosen row ∧
        (rows.filter fun other => chosen other) = [row] ∧
        update chosen change rows = replace column (change row) rows := by
  by_cases some : ∃ row ∈ rows, chosen row
  · obtain ⟨row, member, held⟩ := some
    have exact : ∀ other ∈ rows, chosen other ↔ column other = column row := by
      intro other otherMember
      constructor
      · intro otherHeld
        rw [selects other otherMember otherHeld, selects row member held]
      · intro equal
        rw [unique.eq_of_mem otherMember member equal]
        exact held
    exact .inr ⟨row, member, held, unique.filter_eq_singleton member exact,
      update_eq_replace unique member (same row) exact⟩
  · have none : ∀ row ∈ rows, ¬ chosen row := fun row member held =>
      some ⟨row, member, held⟩
    refine .inl ⟨?_, update_eq_self fun row member held =>
      absurd held (none row member)⟩
    rw [List.filter_eq_nil_iff]
    intro row member
    rw [decide_eq_true_iff]
    exact none row member

/-- A replacement that keeps another column keeps that column unique. -/
theorem Unique.replace_other {Other : Type} {kept : Row → Other}
    (unique : Unique kept rows) (key : Unique column rows)
    (member : row ∈ rows) (sameKey : column replacement = column row)
    (same : kept replacement = kept row) :
    Unique kept (Transaction.replace column replacement rows) := by
  unfold Transaction.replace Transaction.update
  unfold Unique at unique ⊢
  rw [List.map_map, List.map_congr_left (g := kept)]
  · exact unique
  · intro other otherMember
    by_cases equal : column other = column replacement
    · have identical := key.eq_of_mem otherMember member
        (equal.trans sameKey)
      simp [identical, sameKey, same]
    · simp [equal]

theorem Unique.remove (unique : Unique column rows) {key : Key} :
    Unique column (remove column key rows) :=
  unique.delete

/-- The rows after a replacement, seen from the rows before it. -/
theorem exists_replace (unique : Unique column rows) (member : row ∈ rows)
    (same : column replacement = column row) {holds : Row → Prop}
    (found : ∃ old ∈ rows, holds old) (keeps : holds row → holds replacement) :
    ∃ new ∈ replace column replacement rows, holds new := by
  obtain ⟨old, oldMember, held⟩ := found
  by_cases equal : column old = column row
  · have identical := unique.eq_of_mem oldMember member equal
    exact ⟨replacement, (mem_replace_iff member same).mpr (.inl rfl),
      keeps (identical ▸ held)⟩
  · exact ⟨old, (mem_replace_iff member same).mpr (.inr ⟨oldMember, equal⟩),
      held⟩

theorem forall_replace (member : row ∈ rows)
    (same : column replacement = column row) {holds : Row → Prop}
    (all : ∀ old ∈ rows, holds old) (new : holds replacement) :
    ∀ found ∈ replace column replacement rows, holds found := by
  intro found inside
  rcases (mem_replace_iff member same).mp inside with rfl | ⟨old, -⟩
  · exact new
  · exact all found old

theorem exists_append {holds : Row → Prop} (found : ∃ old ∈ rows, holds old)
    (more : List Row) : ∃ new ∈ rows ++ more, holds new := by
  obtain ⟨old, member, held⟩ := found
  exact ⟨old, List.mem_append_left more member, held⟩

theorem forall_append {holds : Row → Prop} (all : ∀ old ∈ rows, holds old)
    (new : holds row) : ∀ found ∈ rows ++ [row], holds found := by
  intro found member
  rcases List.mem_append.mp member with old | added
  · exact all found old
  · rw [List.mem_singleton.mp added]
    exact new

/-- The relation holds between any two rows with different keys. -/
def Apart (column : Row → Key) (related : Row → Row → Prop)
    (rows : List Row) : Prop :=
  ∀ left ∈ rows, ∀ right ∈ rows,
    column left ≠ column right → related left right

variable {related : Row → Row → Prop}

omit [DecidableEq Key] in
theorem Apart.append (apart : Apart column related rows)
    (forward : ∀ other ∈ rows, related row other)
    (backward : ∀ other ∈ rows, related other row) :
    Apart column related (rows ++ [row]) := by
  intro left leftMember right rightMember different
  rcases List.mem_append.mp leftMember with leftOld | leftNew
  · rcases List.mem_append.mp rightMember with rightOld | rightNew
    · exact apart left leftOld right rightOld different
    · rw [List.mem_singleton.mp rightNew]
      exact backward left leftOld
  · rw [List.mem_singleton.mp leftNew] at different ⊢
    rcases List.mem_append.mp rightMember with rightOld | rightNew
    · exact forward right rightOld
    · exact absurd (congrArg column (List.mem_singleton.mp rightNew)).symm
        different

theorem Apart.replace (apart : Apart column related rows)
    (member : row ∈ rows) (same : column replacement = column row)
    (forward : ∀ other, related row other → related replacement other)
    (backward : ∀ other, related other row → related other replacement) :
    Apart column related (replace column replacement rows) := by
  intro left leftMember right rightMember different
  rcases (mem_replace_iff member same).mp leftMember with
    rfl | ⟨leftOld, leftOther⟩
  · rcases (mem_replace_iff member same).mp rightMember with
      rfl | ⟨rightOld, rightOther⟩
    · exact absurd rfl different
    · exact forward right (apart row member right rightOld rightOther.symm)
  · rcases (mem_replace_iff member same).mp rightMember with
      rfl | ⟨rightOld, rightOther⟩
    · exact backward left (apart left leftOld row member leftOther)
    · exact apart left leftOld right rightOld different

theorem Apart.remove (apart : Apart column related rows) {key : Key} :
    Apart column related (remove column key rows) :=
  fun left leftMember right rightMember =>
    apart left (mem_remove_iff.mp leftMember).1 right
      (mem_remove_iff.mp rightMember).1

/-- The row of a key. -/
def lookup (column : Row → Key) (key : Key) (rows : List Row) : Option Row :=
  rows.find? fun row => column row = key

theorem lookup_eq_none_iff {key : Key} :
    lookup column key rows = none ↔ ∀ row ∈ rows, column row ≠ key := by
  unfold lookup
  simp [List.find?_eq_none]

theorem lookup_eq_some_iff (unique : Unique column rows) {key : Key} :
    lookup column key rows = some row ↔ row ∈ rows ∧ column row = key := by
  constructor
  · intro found
    have holds := List.find?_some found
    rw [decide_eq_true_iff] at holds
    exact ⟨List.mem_of_find?_eq_some found, holds⟩
  · rintro ⟨member, rfl⟩
    cases found : lookup column (column row) rows with
    | none => exact absurd rfl (lookup_eq_none_iff.mp found row member)
    | some other =>
        have holds := List.find?_some found
        rw [decide_eq_true_iff] at holds
        rw [unique.eq_of_mem (List.mem_of_find?_eq_some found) member holds]

theorem lookup_append (fresh : ∀ other ∈ rows, column other ≠ column row)
    (key : Key) :
    lookup column key (rows ++ [row]) =
      if column row = key then some row else lookup column key rows := by
  unfold lookup
  rw [List.find?_append, List.find?_singleton]
  by_cases same : column row = key
  · have absent : rows.find? (fun other => column other = key) = none := by
      rw [List.find?_eq_none]
      intro other member
      rw [decide_eq_true_iff]
      exact same ▸ fresh other member
    simp [absent, same]
  · simp [same]

theorem lookup_replace (unique : Unique column rows) (member : row ∈ rows)
    (replacement : Row) (same : column replacement = column row) (key : Key) :
    lookup column key (replace column replacement rows) =
      if column row = key then some replacement
      else lookup column key rows := by
  by_cases equal : column row = key
  · rw [if_pos equal, lookup_eq_some_iff unique.replace,
      mem_replace_iff member same]
    exact ⟨.inl rfl, same.trans equal⟩
  · rw [if_neg equal]
    ext found
    rw [lookup_eq_some_iff unique.replace, lookup_eq_some_iff unique,
      mem_replace_iff member same]
    constructor
    · rintro ⟨rfl | ⟨old, -⟩, atKey⟩
      · exact absurd (same.symm.trans atKey) equal
      · exact ⟨old, atKey⟩
    · rintro ⟨old, atKey⟩
      exact ⟨.inr ⟨old, fun clash => equal (clash.symm.trans atKey)⟩, atKey⟩

theorem lookup_remove (unique : Unique column rows) (removed key : Key) :
    lookup column key (remove column removed rows) =
      if removed = key then none else lookup column key rows := by
  by_cases equal : removed = key
  · rw [if_pos equal, lookup_eq_none_iff]
    intro row member
    exact equal ▸ (mem_remove_iff.mp member).2
  · rw [if_neg equal]
    ext found
    rw [lookup_eq_some_iff unique.remove, lookup_eq_some_iff unique,
      mem_remove_iff]
    constructor
    · rintro ⟨⟨old, -⟩, atKey⟩
      exact ⟨old, atKey⟩
    · rintro ⟨old, atKey⟩
      exact ⟨⟨old, fun clash => equal (clash.symm.trans atKey)⟩, atKey⟩

end Keyed

end Transaction
