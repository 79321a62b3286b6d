import Mathlib.Tactic

/-! Writing at a position of a list, the gap before it filled up, and sequences of such writes. -/
namespace Overlay

section WriteAt
variable {α : Type*} {fill : α} {l data : List α} {pos i : ℕ}

/-- The list `l` with `data` written at `pos`. -/
def writeAt (fill : α) (l : List α) (pos : ℕ) (data : List α) : List α :=
  (l.take pos).rightpad pos fill ++ (data ++ l.drop (pos + data.length))

@[simp] theorem length_writeAt :
    (writeAt fill l pos data).length = max l.length (pos + data.length) := by
  unfold writeAt
  rw [List.length_append, List.length_append, List.length_rightpad, List.length_take,
    List.length_drop]
  omega

/-- Inside of the data the data is read. -/
theorem writeAt_inside (h : pos ≤ i) (h' : i < pos + data.length) :
    (writeAt fill l pos data)[i]? = data[i - pos]? := by
  have hpad : ((l.take pos).rightpad pos fill).length = pos := by
    rw [List.length_rightpad, List.length_take]
    omega
  unfold writeAt
  rw [List.getElem?_append_right (by omega), hpad, List.getElem?_append_left (by omega)]

/-- Outside of the data the old list is read. -/
theorem writeAt_outside (h : i < pos ∨ pos + data.length ≤ i) (hi : i < l.length) :
    (writeAt fill l pos data)[i]? = l[i]? := by
  have hpad : ((l.take pos).rightpad pos fill).length = pos := by
    rw [List.length_rightpad, List.length_take]
    omega
  unfold writeAt
  rcases h with h | h
  · rw [List.getElem?_append_left (by omega), List.rightpad,
      List.getElem?_append_left (by rw [List.length_take]; omega), List.getElem?_take_of_lt h]
  · rw [List.getElem?_append_right (by omega), hpad, List.getElem?_append_right (by omega),
      List.getElem?_drop]
    congr 1
    omega

/-- Between the old end and the data there is the filler. -/
theorem writeAt_gap (h : i < pos) (hi : l.length ≤ i) :
    (writeAt fill l pos data)[i]? = some fill := by
  unfold writeAt
  rw [List.getElem?_append_left (by rw [List.length_rightpad, List.length_take]; omega),
    List.rightpad, List.getElem?_append_right (by rw [List.length_take]; omega),
    List.getElem?_replicate]
  rw [if_pos]
  rw [List.length_take]
  omega

/-- The list `new` is `old` with `data` at `pos`, and with the filler in the gap before it. -/
structure Written (fill : α) (old : List α) (pos : ℕ) (data new : List α) : Prop where
  length : new.length = max old.length (pos + data.length)
  inside : ∀ i, pos ≤ i → i < pos + data.length → new[i]? = data[i - pos]?
  outside : ∀ i < old.length, i < pos ∨ pos + data.length ≤ i → new[i]? = old[i]?
  gap : ∀ i < pos, old.length ≤ i → new[i]? = some fill

theorem written_writeAt : Written fill l pos data (writeAt fill l pos data) where
  length := length_writeAt
  inside _ h h' := writeAt_inside h h'
  outside _ hi h := writeAt_outside h hi
  gap _ h hi := writeAt_gap h hi

theorem take_drop_writeAt (fill : α) (l : List α) (pos : ℕ) (data : List α) :
    ((writeAt fill l pos data).drop pos).take data.length = data := by
  apply List.ext_getElem?
  intro i
  by_cases hi : i < data.length
  · rw [List.getElem?_take_of_lt hi, List.getElem?_drop, writeAt_inside (by omega) (by omega),
      Nat.add_sub_cancel_left]
  · rw [List.getElem?_eq_none (by rw [List.length_take]; omega),
      List.getElem?_eq_none (Nat.not_lt.mp hi)]

theorem drop_writeAt {n : ℕ} (h : pos + data.length ≤ n) :
    (writeAt fill l pos data).drop n = l.drop n := by
  apply List.ext_getElem?
  intro i
  rw [List.getElem?_drop, List.getElem?_drop]
  by_cases hi : n + i < l.length
  · rw [writeAt_outside (by omega) hi]
  · rw [List.getElem?_eq_none (by rw [length_writeAt]; omega), List.getElem?_eq_none (by omega)]

end WriteAt

/-! ### Sequences of writes -/

section WriteAll
variable {α : Type*} {fill : α} {l ref : List α} {w : ℕ × List α} {ws : List (ℕ × List α)} {i n : ℕ}

/-- The writes of `ws`, the first one first. -/
def writeAll (fill : α) (l : List α) (ws : List (ℕ × List α)) : List α :=
  ws.foldl (fun l w => writeAt fill l w.1 w.2) l

theorem writeAll_cons : writeAll fill l (w :: ws) = writeAll fill (writeAt fill l w.1 w.2) ws := rfl

def Covers (w : ℕ × List α) (i : ℕ) : Prop := w.1 ≤ i ∧ i < w.1 + w.2.length

/-- What is written is what the list `ref` has there. -/
def Agrees (ref : List α) (w : ℕ × List α) : Prop := ∀ i, Covers w i → w.2[i - w.1]? = ref[i]?

theorem writeAt_of_not_covers (h : ¬ Covers w i) (hi : i < l.length) :
    (writeAt fill l w.1 w.2)[i]? = l[i]? := by
  apply writeAt_outside _ hi
  unfold Covers at h
  omega

theorem lt_length_writeAt (hi : i < l.length) : i < (writeAt fill l w.1 w.2).length := by
  rw [length_writeAt]
  omega

/-- An element that agrees stays so, as long as all the writes agree. -/
theorem writeAll_agrees (h : ∀ w ∈ ws, Agrees ref w) (hi : i < l.length) (hl : l[i]? = ref[i]?) :
    (writeAll fill l ws)[i]? = ref[i]? := by
  induction ws generalizing l with
  | nil => exact hl
  | cons w ws ih =>
    rw [writeAll_cons]
    apply ih (fun w' hw' => h w' (List.mem_cons_of_mem w hw')) (lt_length_writeAt hi)
    by_cases hw : Covers w i
    · rw [writeAt_inside hw.1 hw.2]
      exact h w List.mem_cons_self i hw
    · rw [writeAt_of_not_covers hw hi, hl]

/-- Writes that agree with `ref` leave its elements wherever one of them went, in whatever order
they come and however often. -/
theorem writeAll_covered (h : ∀ w ∈ ws, Agrees ref w) (hcov : ∃ w ∈ ws, Covers w i) :
    (writeAll fill l ws)[i]? = ref[i]? := by
  induction ws generalizing l with
  | nil =>
    obtain ⟨w, hw, -⟩ := hcov
    cases hw
  | cons w ws ih =>
    rw [writeAll_cons]
    have hrest : ∀ w' ∈ ws, Agrees ref w' := fun w' hw' => h w' (List.mem_cons_of_mem w hw')
    by_cases hw : Covers w i
    · apply writeAll_agrees hrest
      · have := hw.2
        rw [length_writeAt]
        omega
      · rw [writeAt_inside hw.1 hw.2]
        exact h w List.mem_cons_self i hw
    · obtain ⟨w', hw', hcov⟩ := hcov
      rcases List.mem_cons.mp hw' with rfl | hw'
      · exact absurd hcov hw
      · exact ih hrest ⟨w', hw', hcov⟩

theorem writeAll_uncovered (h : ∀ w ∈ ws, ¬ Covers w i) (hi : i < l.length) :
    (writeAll fill l ws)[i]? = l[i]? := by
  induction ws generalizing l with
  | nil => rfl
  | cons w ws ih =>
    rw [writeAll_cons, ih (fun w' hw' => h w' (List.mem_cons_of_mem w hw')) (lt_length_writeAt hi),
      writeAt_of_not_covers (h w List.mem_cons_self) hi]

theorem writeAll_gap (h : ∀ w ∈ ws, ¬ Covers w i) (hi : l.length ≤ i)
    (hi' : i < (writeAll fill l ws).length) : (writeAll fill l ws)[i]? = some fill := by
  induction ws generalizing l with
  | nil => exact absurd hi' (Nat.not_lt.mpr hi)
  | cons w ws ih =>
    have hrest : ∀ w' ∈ ws, ¬ Covers w' i := fun w' hw' => h w' (List.mem_cons_of_mem w hw')
    have hw := h w List.mem_cons_self
    rw [writeAll_cons] at hi' ⊢
    by_cases hlt : i < (writeAt fill l w.1 w.2).length
    · rw [writeAll_uncovered hrest hlt, writeAt_gap _ hi]
      rw [length_writeAt] at hlt
      unfold Covers at hw
      omega
    · exact ih hrest (Nat.not_lt.mp hlt) hi'

theorem length_writeAll_le (hl : l.length ≤ n) (h : ∀ w ∈ ws, w.1 + w.2.length ≤ n) :
    (writeAll fill l ws).length ≤ n := by
  induction ws generalizing l with
  | nil => exact hl
  | cons w ws ih =>
    rw [writeAll_cons]
    apply ih _ fun w' hw' => h w' (List.mem_cons_of_mem w hw')
    rw [length_writeAt]
    exact max_le hl (h w List.mem_cons_self)

/-- Writes that agree with `ref` and go everywhere in it put it over the start of the list. -/
theorem writeAll_eq_append (h : ∀ w ∈ ws, Agrees ref w)
    (hin : ∀ w ∈ ws, w.1 + w.2.length ≤ ref.length)
    (hcov : ∀ i < ref.length, ∃ w ∈ ws, Covers w i) :
    writeAll fill l ws = ref ++ l.drop ref.length := by
  have hlen : (writeAll fill l ws).length ≤ max l.length ref.length := by
    apply length_writeAll_le (le_max_left _ _)
    exact fun w hw => (hin w hw).trans (le_max_right _ _)
  apply List.ext_getElem?
  intro i
  by_cases hi : i < ref.length
  · rw [List.getElem?_append_left hi]
    exact writeAll_covered h (hcov i hi)
  · have hno : ∀ w ∈ ws, ¬ Covers w i := by
      intro w hw hcovers
      exact hi (hcovers.2.trans_le (hin w hw))
    rw [List.getElem?_append_right (Nat.not_lt.mp hi), List.getElem?_drop,
      Nat.add_sub_cancel' (Nat.not_lt.mp hi)]
    by_cases hl : i < l.length
    · exact writeAll_uncovered hno hl
    · rw [List.getElem?_eq_none (by omega), List.getElem?_eq_none (by omega)]

theorem writeAll_nil_eq (h : ∀ w ∈ ws, Agrees ref w) (hin : ∀ w ∈ ws, w.1 + w.2.length ≤ ref.length)
    (hcov : ∀ i < ref.length, ∃ w ∈ ws, Covers w i) : writeAll fill [] ws = ref := by
  rw [writeAll_eq_append h hin hcov, List.drop_nil, List.append_nil]

/-! ### The last write wins -/

instance (w : ℕ × List α) (i : ℕ) : Decidable (Covers w i) := inferInstanceAs (Decidable (_ ∧ _))

/-- The last one of the writes that go to the position. -/
def lastWrite (ws : List (ℕ × List α)) (i : ℕ) : Option (ℕ × List α) :=
  ws.reverse.find? fun w => decide (Covers w i)

theorem writeAll_append (ws ws' : List (ℕ × List α)) :
    writeAll fill l (ws ++ ws') = writeAll fill (writeAll fill l ws) ws' := List.foldl_append ..

theorem lastWrite_eq_none : lastWrite ws i = none ↔ ∀ w ∈ ws, ¬ Covers w i := by
  unfold lastWrite
  simp only [List.find?_eq_none, List.mem_reverse, decide_eq_true_eq]

theorem lastWrite_eq_some (h : lastWrite ws i = some w) : Covers w i ∧
    ∃ before after, ws = before ++ w :: after ∧ ∀ w' ∈ after, ¬ Covers w' i := by
  obtain ⟨hcov, after, before, hws, hafter⟩ := List.find?_eq_some_iff_append.mp h
  constructor
  · exact of_decide_eq_true hcov
  · refine ⟨before.reverse, after.reverse, ?_, ?_⟩
    · rw [← List.reverse_reverse ws, hws, List.reverse_append, List.reverse_cons, List.append_assoc]
      rfl
    · intro w' hw'
      simpa using hafter w' (List.mem_reverse.mp hw')

/-- Where no write went the list is as before, with the filler behind its old end; elsewhere the
last write has left its data. -/
theorem getElem?_writeAll : (writeAll fill l ws)[i]? =
    match lastWrite ws i with
    | some w => w.2[i - w.1]?
    | none => if i < l.length then l[i]?
      else if i < (writeAll fill l ws).length then some fill else none := by
  cases hlast : lastWrite ws i with
  | none =>
    have hno := lastWrite_eq_none.mp hlast
    dsimp only
    split_ifs with hi hi'
    · exact writeAll_uncovered hno hi
    · exact writeAll_gap hno (Nat.not_lt.mp hi) hi'
    · exact List.getElem?_eq_none (Nat.not_lt.mp hi')
  | some w =>
    obtain ⟨hcov, before, after, rfl, hafter⟩ := lastWrite_eq_some hlast
    have hlt : i < (writeAt fill (writeAll fill l before) w.1 w.2).length := by
      rw [length_writeAt]
      exact hcov.2.trans_le (le_max_right _ _)
    rw [writeAll_append, writeAll_cons, writeAll_uncovered hafter hlt,
      writeAt_inside hcov.1 hcov.2]

/-- Where an element can come from. -/
theorem getElem?_writeAll_cases {a : α} (h : (writeAll fill l ws)[i]? = some a) :
    (∃ w ∈ ws, Covers w i ∧ w.2[i - w.1]? = some a) ∨ l[i]? = some a ∨
      l.length ≤ i ∧ a = fill := by
  rw [getElem?_writeAll] at h
  cases hlast : lastWrite ws i with
  | some w =>
    rw [hlast] at h
    obtain ⟨hcov, before, after, rfl, -⟩ := lastWrite_eq_some hlast
    exact Or.inl ⟨w, List.mem_append_right _ List.mem_cons_self, hcov, h⟩
  | none =>
    rw [hlast] at h
    dsimp only at h
    split_ifs at h with hi
    · exact Or.inr (Or.inl h)
    · cases h
      exact Or.inr (Or.inr ⟨Nat.not_lt.mp hi, rfl⟩)

/-- Positions that the same writes go to get their data from the same one. -/
theorem lastWrite_congr {j : ℕ} (h : ∀ w ∈ ws, Covers w i ↔ Covers w j) :
    lastWrite ws i = lastWrite ws j := by
  unfold lastWrite
  apply List.find?_congr
  intro w hw
  exact decide_eq_decide.mpr (h w (List.mem_reverse.mp hw))

theorem length_writeAll_le_iff : (writeAll fill l ws).length ≤ n ↔
    l.length ≤ n ∧ ∀ w ∈ ws, w.1 + w.2.length ≤ n := by
  induction ws generalizing l with
  | nil => simp [writeAll]
  | cons w ws ih =>
    rw [writeAll_cons, ih, length_writeAt, max_le_iff, List.forall_mem_cons, and_assoc]

/-- The writes in another order, or with repetitions, leave the same list as long as they agree
with one list. -/
theorem writeAll_congr {ws' : List (ℕ × List α)} (h : ∀ w ∈ ws, Agrees ref w)
    (hsame : ∀ w, w ∈ ws ↔ w ∈ ws') : writeAll fill l ws = writeAll fill l ws' := by
  have h' : ∀ w ∈ ws', Agrees ref w := fun w hw => h w ((hsame w).mpr hw)
  have hlen : (writeAll fill l ws).length = (writeAll fill l ws').length := by
    apply eq_of_forall_ge_iff
    intro n
    rw [length_writeAll_le_iff, length_writeAll_le_iff]
    simp only [hsame]
  apply List.ext_getElem?
  intro i
  by_cases hcov : ∃ w ∈ ws, Covers w i
  · have hcov' : ∃ w ∈ ws', Covers w i := by
      obtain ⟨w, hw, hi⟩ := hcov
      exact ⟨w, (hsame w).mp hw, hi⟩
    rw [writeAll_covered h hcov, writeAll_covered h' hcov']
  · have hno : lastWrite ws i = none :=
      lastWrite_eq_none.mpr fun w hw hi => hcov ⟨w, hw, hi⟩
    have hno' : lastWrite ws' i = none :=
      lastWrite_eq_none.mpr fun w hw hi => hcov ⟨w, (hsame w).mpr hw, hi⟩
    rw [getElem?_writeAll, getElem?_writeAll, hno, hno', hlen]

end WriteAll
end Overlay
