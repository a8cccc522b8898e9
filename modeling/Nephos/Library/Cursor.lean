import Mathlib.Data.List.Sort

/-!
# Reading a log with a cursor

A reader of a log that grows at its end remembers only the key of the last
record it has read.  Because the keys increase, that key is enough to go on
where the reader stopped: what lies after it is what has not been read.
-/

namespace Cursor

universe u v

variable {Record : Type u} {Key : Type v} {key : Record → Key}

/-- The position of a reader that began at `start`. -/
def position (key : Record → Key) (start : Key) (read : List Record) : Key :=
  (read.getLast?.map key).getD start

@[simp]
theorem position_nil (start : Key) : position key start [] = start := rfl

@[simp]
theorem position_concat (start : Key) (read : List Record) (last : Record) :
    position key start (read ++ [last]) = key last := by
  simp [position]

variable [LinearOrder Key]

/-- The keys increase along the log. -/
def Increasing (key : Record → Key) (log : List Record) : Prop :=
  log.Pairwise fun left right => key left < key right

/-- The records with keys above a position. -/
def after (key : Record → Key) (position : Key) (log : List Record) :
    List Record :=
  log.filter fun record => position < key record

theorem Increasing.after {log : List Record} (increasing : Increasing key log)
    (start : Key) : Increasing key (Cursor.after key start log) :=
  increasing.sublist List.filter_sublist

theorem after_append (start : Key) (front back : List Record) :
    after key start (front ++ back) =
      after key start front ++ after key start back :=
  List.filter_append front back

theorem start_le_position {start : Key} {log read : List Record}
    (isRead : read <+: after key start log) :
    start ≤ position key start read := by
  rcases List.eq_nil_or_concat read with rfl | ⟨front, last, rfl⟩
  · exact le_refl start
  · rw [List.concat_eq_append] at isRead ⊢
    have member : last ∈ after key start log := isRead.subset (by simp)
    have above : start < key last := by
      simpa using (List.mem_filter.mp member).2
    rw [position_concat]
    exact above.le

/-- Only the records above the higher of two positions count. -/
theorem after_after {first second : Key} (ordered : first ≤ second)
    (log : List Record) :
    after key second (after key first log) = after key second log := by
  unfold after
  rw [List.filter_filter]
  apply List.filter_congr
  intro record _
  have implied : second < key record → first < key record :=
    ordered.trans_lt
  grind

/-- What lies after the position of a reader is what it has not read. -/
theorem after_position {start : Key} {log read rest : List Record}
    (increasing : Increasing key log)
    (split : after key start log = read ++ rest) :
    after key (position key start read) log = rest := by
  rcases List.eq_nil_or_concat read with rfl | ⟨front, last, rfl⟩
  · simpa using split
  · rw [List.concat_eq_append] at split ⊢
    rw [position_concat]
    have above : start ≤ key last := by
      have bound : start ≤ position key start (front ++ [last]) :=
        start_le_position (split ▸ List.prefix_append _ _)
      rwa [position_concat] at bound
    have ordered := increasing.after start
    rw [split, Increasing, List.append_assoc, List.pairwise_append] at ordered
    obtain ⟨-, tail, lower⟩ := ordered
    rw [List.singleton_append, List.pairwise_cons] at tail
    rw [← after_after above, split, List.append_assoc, after_append]
    have dropped : after key (key last) front = [] := by
      rw [after, List.filter_eq_nil_iff]
      intro record member
      simpa using (lower record member last (by simp)).le
    have kept : after key (key last) ([last] ++ rest) = rest := by
      rw [after, List.singleton_append, List.filter_cons_of_neg (by simp),
        List.filter_eq_self]
      intro record member
      simpa using tail.1 record member
    rw [dropped, kept, List.nil_append]

end Cursor
