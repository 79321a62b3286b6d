import Mathlib.Tactic

/-! Output through a buffer: a stream holds back some of what is written to it and hands the rest
on to a sink, which may take only a part of what it is handed. -/

structure OutputStream (α : Type*) where
  /-- What the sink has taken. -/
  sink : List α
  pending : List α

namespace OutputStream
variable {α : Type*} {s : OutputStream α} {data : List α} {kept room : ℕ}

/-- How many elements are handed on if `kept` of them are held back when `data` is written. -/
def due (s : OutputStream α) (data : List α) (kept : ℕ) : ℕ := (s.pending ++ data).length - kept

/-- The sink takes `room` elements at most. -/
def write (s : OutputStream α) (data : List α) (kept room : ℕ) : OutputStream α where
  sink := s.sink ++ (s.pending ++ data).take (min (s.due data kept) room)
  pending := (s.pending ++ data).drop (min (s.due data kept) room)

/-- All that is pending is handed on, and what the sink does not take is lost. -/
def close (s : OutputStream α) (room : ℕ) : OutputStream α := ⟨s.sink ++ s.pending.take room, []⟩

def written (s : OutputStream α) : List α := s.sink ++ s.pending

@[simp] theorem written_write : (s.write data kept room).written = s.written ++ data := by
  unfold written write
  rw [List.append_assoc, List.take_append_drop, List.append_assoc]

theorem due_le_iff : s.due data kept ≤ room ↔ s.pending.length + data.length ≤ kept + room := by
  unfold due
  rw [List.length_append]
  omega

/-- While the sink takes what it is handed, no more than `kept` elements are pending. -/
theorem length_pending_of_due_le (h : s.due data kept ≤ room) :
    (s.write data kept room).pending.length = min kept (s.pending.length + data.length) := by
  unfold write
  rw [min_eq_left h, List.length_drop, due, List.length_append]
  omega

theorem length_pending_of_lt_due (h : room < s.due data kept) :
    (s.write data kept room).pending.length = s.pending.length + data.length - room := by
  unfold write
  rw [min_eq_right h.le, List.length_drop, List.length_append]

/-- In the end the sink has what was written, but for the last elements. -/
theorem sink_close : (s.close room).sink =
    s.written.take (s.written.length - (s.pending.length - room)) := by
  have hlen : s.written.length - (s.pending.length - room) =
      s.sink.length + min room s.pending.length := by
    unfold written
    rw [List.length_append]
    omega
  rw [hlen]
  unfold close written
  rw [List.take_length_add_append, List.take_eq_take_min]

end OutputStream
