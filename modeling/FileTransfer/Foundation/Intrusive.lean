import Mathlib.Data.List.Nodup
import Mathlib.Tactic

/-! Doubly linked lists whose links are stored in the elements. `Segment before ptr xs
after rest` says that following `next` from `ptr` runs through `xs` and leaves at `rest`,
where `before` precedes the first element and `after` is the last one passed. -/
namespace Intrusive

variable {ι : Type*}

/-- The two links of every element. -/
@[ext] structure Links (ι : Type*) where
  next : ι → Option ι
  prev : ι → Option ι

namespace Links
variable [DecidableEq ι]

def setNext (L : Links ι) (x : ι) (p : Option ι) : Links ι :=
  { L with next := Function.update L.next x p }

def setPrev (L : Links ι) (x : ι) (p : Option ι) : Links ι :=
  { L with prev := Function.update L.prev x p }

/-- Link `x` in front of the list that starts at `head`. -/
def pushFront (L : Links ι) (head : Option ι) (x : ι) : Links ι :=
  let L := match head with
    | some h => L.setPrev h (some x)
    | none => L
  (L.setNext x head).setPrev x none

/-- Link the neighbours of `x` to each other. -/
def unlink (L : Links ι) (x : ι) : Links ι :=
  let next := L.next x
  let prev := L.prev x
  let L := match next with
    | some n => L.setPrev n prev
    | none => L
  match prev with
  | some p => L.setNext p next
  | none => L

/-- The head of the list after `x` is unlinked. -/
def unlinkHead (L : Links ι) (head : Option ι) (x : ι) : Option ι :=
  match L.prev x with
  | some _ => head
  | none => L.next x

@[simp] theorem setNext_prev (L : Links ι) (x : ι) (p : Option ι) :
    (L.setNext x p).prev = L.prev := rfl
@[simp] theorem setPrev_next (L : Links ι) (x : ι) (p : Option ι) :
    (L.setPrev x p).next = L.next := rfl
@[simp] theorem setNext_next_self (L : Links ι) (x : ι) (p : Option ι) :
    (L.setNext x p).next x = p := Function.update_self ..
@[simp] theorem setPrev_prev_self (L : Links ι) (x : ι) (p : Option ι) :
    (L.setPrev x p).prev x = p := Function.update_self ..
theorem setNext_next_of_ne (L : Links ι) {x y : ι} (p : Option ι) (h : y ≠ x) :
    (L.setNext x p).next y = L.next y := Function.update_of_ne h ..
theorem setPrev_prev_of_ne (L : Links ι) {x y : ι} (p : Option ι) (h : y ≠ x) :
    (L.setPrev x p).prev y = L.prev y := Function.update_of_ne h ..

/-- Every link joins two related elements. -/
def Within (R : ι → ι → Prop) (L : Links ι) : Prop :=
  ∀ x y, L.next x = some y ∨ L.prev x = some y → R x y

section Within
variable {R R' : ι → ι → Prop} {L : Links ι} {x : ι} {p : Option ι}

omit [DecidableEq ι] in
theorem Within.mono (h : L.Within R) (hR : ∀ x y, R x y → R' x y) : L.Within R' :=
  fun x y hxy => hR x y (h x y hxy)

theorem Within.setNext (h : L.Within R) (hp : ∀ y, p = some y → R x y) :
    (L.setNext x p).Within R := by
  intro z y hzy
  by_cases hz : z = x
  · subst hz
    rw [setNext_next_self, setNext_prev] at hzy
    exact hzy.elim (hp y) fun hy => h z y (Or.inr hy)
  · rw [setNext_next_of_ne L p hz, setNext_prev] at hzy
    exact h z y hzy

theorem Within.setPrev (h : L.Within R) (hp : ∀ y, p = some y → R x y) :
    (L.setPrev x p).Within R := by
  intro z y hzy
  by_cases hz : z = x
  · subst hz
    rw [setPrev_prev_self, setPrev_next] at hzy
    exact hzy.elim (fun hy => h z y (Or.inl hy)) (hp y)
  · rw [setPrev_prev_of_ne L p hz, setPrev_next] at hzy
    exact h z y hzy

/-- Linking `x` in front of any element of its class, whatever the lists look like. -/
theorem Within.pushFront (h : L.Within R) (hsymm : ∀ x y, R x y → R y x) {head : Option ι}
    (hhead : ∀ y, head = some y → R x y) : (L.pushFront head x).Within R := by
  have hnone : ∀ y, none = some y → R x y := fun _ hy => nomatch hy
  cases head with
  | none => exact (h.setNext hhead).setPrev hnone
  | some y =>
    have hxy := hhead y rfl
    have hy : ∀ z, some x = some z → R y z := fun z hz => Option.some.inj hz ▸ hsymm x y hxy
    exact ((h.setPrev hy).setNext hhead).setPrev hnone

theorem Within.unlink (h : L.Within R) (hsymm : ∀ x y, R x y → R y x)
    (htrans : ∀ x y z, R x y → R y z → R x z) (x : ι) : (L.unlink x).Within R := by
  have hnext : ∀ n, L.next x = some n → R x n := fun n hn => h x n (Or.inl hn)
  have hprev : ∀ n, L.prev x = some n → R x n := fun n hn => h x n (Or.inr hn)
  unfold Links.unlink
  cases hn : L.next x with
  | none =>
    cases hp : L.prev x with
    | none => exact h
    | some p => exact h.setNext (fun _ hy => nomatch hy)
  | some n =>
    have hmid : (L.setPrev n (L.prev x)).Within R := h.setPrev fun y hy =>
      htrans n x y (hsymm x n (hnext n hn)) (hprev y hy)
    cases hp : L.prev x with
    | none =>
      rw [hp] at hmid
      exact hmid
    | some p =>
      rw [hp] at hmid
      refine hmid.setNext fun y hy => ?_
      exact htrans p x y (hsymm x p (hprev p hp)) (Option.some.inj hy ▸ hnext n hn)

end Within
end Links

def Segment (L : Links ι) : Option ι → Option ι → List ι → Option ι → Option ι → Prop
  | before, ptr, [], after, rest => before = after ∧ ptr = rest
  | before, ptr, x :: xs, after, rest =>
    ptr = some x ∧ L.prev x = before ∧ Segment L (some x) (L.next x) xs after rest

/-- `head` starts a list that runs through `xs` and ends. -/
def IsList (L : Links ι) (head : Option ι) (xs : List ι) : Prop :=
  ∃ last, Segment L none head xs last none

section Segments
variable {L M : Links ι} {before ptr after rest head : Option ι} {x y : ι} {xs ys : List ι}

theorem Segment.congr (h : Segment L before ptr xs after rest)
    (hn : ∀ x ∈ xs, M.next x = L.next x) (hp : ∀ x ∈ xs, M.prev x = L.prev x) :
    Segment M before ptr xs after rest := by
  induction xs generalizing before ptr with
  | nil => exact h
  | cons x xs ih =>
    obtain ⟨hptr, hprev, htail⟩ := h
    refine ⟨hptr, (hp x (by simp)).trans hprev, ?_⟩
    rw [hn x (by simp)]
    exact ih htail (fun y hy => hn y (by simp [hy])) (fun y hy => hp y (by simp [hy]))

theorem segment_append :
    Segment L before ptr (xs ++ ys) after rest ↔
      ∃ b p, Segment L before ptr xs b p ∧ Segment L b p ys after rest := by
  induction xs generalizing before ptr with
  | nil =>
    constructor
    · exact fun h => ⟨before, ptr, ⟨rfl, rfl⟩, h⟩
    · rintro ⟨b, p, ⟨rfl, rfl⟩, h⟩
      exact h
  | cons x xs ih =>
    simp only [List.cons_append, Segment, ih]
    constructor
    · rintro ⟨hptr, hprev, b, p, h1, h2⟩
      exact ⟨b, p, ⟨hptr, hprev, h1⟩, h2⟩
    · rintro ⟨b, p, ⟨hptr, hprev, h1⟩, h2⟩
      exact ⟨hptr, hprev, b, p, h1, h2⟩

/-- The last element passed by a nonempty segment. -/
theorem Segment.after_eq (h : Segment L before ptr (xs ++ [y]) after rest) :
    after = some y ∧ L.next y = rest := by
  obtain ⟨b, p, -, -, -, h1, h2⟩ := segment_append.mp h
  exact ⟨h1.symm, h2⟩

theorem IsList.congr (h : IsList L head xs) (hn : ∀ x ∈ xs, M.next x = L.next x)
    (hp : ∀ x ∈ xs, M.prev x = L.prev x) : IsList M head xs :=
  h.imp fun _ hs => hs.congr hn hp

theorem IsList.head_eq (h : IsList L head xs) : head = xs.head? := by
  obtain ⟨last, h⟩ := h
  cases xs with
  | nil => exact h.2
  | cons x xs => exact h.1

theorem IsList.prev_head (h : IsList L head (x :: xs)) : L.prev x = none := by
  obtain ⟨last, h⟩ := h
  exact h.2.1

theorem Segment.isChain (h : Segment L before ptr xs after rest) :
    xs.IsChain fun x y => L.next x = some y ∧ L.prev y = some x := by
  induction xs generalizing before ptr with
  | nil => exact .nil
  | cons x xs ih =>
    obtain ⟨-, -, htail⟩ := h
    cases xs with
    | nil => exact .singleton x
    | cons y ys => exact (ih htail).cons_cons ⟨htail.1, htail.2.1⟩

theorem IsList.isChain (h : IsList L head xs) :
    xs.IsChain fun x y => L.next x = some y ∧ L.prev y = some x := by
  obtain ⟨last, h⟩ := h
  exact h.isChain

theorem IsList.next_getLast (h : IsList L head xs) (hx : xs.getLast? = some x) :
    L.next x = none := by
  obtain ⟨last, h⟩ := h
  obtain ⟨ys, rfl⟩ := List.getLast?_eq_some_iff.mp hx
  exact h.after_eq.2

/-- The links of an element point into its list. -/
theorem IsList.neighbours (h : IsList L head (xs ++ x :: ys)) :
    (∀ y, L.prev x = some y → y ∈ xs) ∧ ∀ y, L.next x = some y → y ∈ ys := by
  obtain ⟨last, h⟩ := h
  obtain ⟨b, p, hxs, -, hprev, hys⟩ := segment_append.mp h
  refine ⟨fun y hy => ?_, fun y hy => ?_⟩
  · rcases List.eq_nil_or_concat xs with rfl | ⟨zs, z, rfl⟩
    · have hb : none = b := hxs.1
      rw [hprev, ← hb] at hy
      cases hy
    · rw [List.concat_eq_append] at hxs ⊢
      rw [hprev, hxs.after_eq.1] at hy
      simp [Option.some.inj hy]
  · cases ys with
    | nil =>
      have hn : L.next x = none := hys.2
      rw [hn] at hy
      cases hy
    | cons z zs =>
      rw [hys.1] at hy
      simp [Option.some.inj hy]

/-! ### The two operations -/

variable [DecidableEq ι]

/-- Redirecting the last `next` of a segment changes where the segment leaves. -/
theorem Segment.setNext_last (h : Segment L before ptr (xs ++ [y]) after rest)
    (hnd : (xs ++ [y]).Nodup) (q : Option ι) :
    Segment (L.setNext y q) before ptr (xs ++ [y]) after q := by
  obtain ⟨b, p, hxs, hp, hprev, h1, -⟩ := segment_append.mp h
  refine segment_append.mpr ⟨b, p, hxs.congr (fun x hx => ?_) (fun _ _ => rfl), hp, hprev, h1, ?_⟩
  · refine L.setNext_next_of_ne q ?_
    rintro rfl
    exact List.disjoint_of_nodup_append hnd hx (by simp)
  · exact L.setNext_next_self y q

/-- Redirecting the first `prev` of a segment changes what precedes the segment. -/
theorem Segment.setPrev_first (h : Segment L before ptr (x :: xs) after rest)
    (hnd : (x :: xs).Nodup) (q : Option ι) :
    Segment (L.setPrev x q) q ptr (x :: xs) after rest := by
  obtain ⟨hptr, -, htail⟩ := h
  refine ⟨hptr, L.setPrev_prev_self x q, htail.congr (fun _ _ => rfl) fun y hy => ?_⟩
  refine L.setPrev_prev_of_ne q ?_
  rintro rfl
  exact (List.nodup_cons.mp hnd).1 hy

theorem IsList.pushFront (h : IsList L head xs) (hx : x ∉ xs) (hnd : xs.Nodup) :
    IsList (L.pushFront head x) (some x) (x :: xs) := by
  obtain ⟨last, h⟩ := h
  cases xs with
  | nil =>
    obtain ⟨-, rfl⟩ := h
    exact ⟨some x, rfl, by simp [Links.pushFront], rfl, by simp [Links.pushFront]⟩
  | cons y ys =>
    obtain rfl : head = some y := h.1
    have hs := h.setPrev_first hnd (some x)
    have hne : ∀ z ∈ y :: ys, z ≠ x := fun z hz e => hx (e ▸ hz)
    refine ⟨last, rfl, by simp [Links.pushFront], ?_⟩
    have hnext : (L.pushFront (some y) x).next x = some y := by simp [Links.pushFront]
    rw [hnext]
    refine hs.congr (fun z hz => ?_) (fun z hz => ?_)
    · exact Links.setNext_next_of_ne _ _ (hne z hz)
    · exact Links.setPrev_prev_of_ne _ _ (hne z hz)

/-- What `unlink` and `unlinkHead` make of a list, when `x` stands between `xs` and `ys`. -/
theorem IsList.unlink (h : IsList L head (xs ++ x :: ys)) (hnd : (xs ++ x :: ys).Nodup) :
    IsList (L.unlink x) (L.unlinkHead head x) (xs ++ ys) := by
  obtain ⟨last, h⟩ := h
  obtain ⟨b, p, hxs, rfl, hprev, hys⟩ := segment_append.mp h
  obtain ⟨hndx, hndy, hdisj⟩ := List.nodup_append.mp hnd
  obtain ⟨hxy, hndy⟩ := List.nodup_cons.mp hndy
  have hne : ∀ z ∈ xs, ∀ w ∈ ys, z ≠ w := fun z hz w hw => hdisj z hz w (by simp [hw])
  -- the part behind `x` is entered from the part before it
  obtain ⟨M, hM, last', hback, hnextM, hprevM⟩ : ∃ M : Links ι,
      (M = match L.next x with
        | some n => L.setPrev n (L.prev x)
        | none => L) ∧ ∃ last', Segment M b (L.next x) ys last' none ∧
        (∀ z, M.next z = L.next z) ∧ ∀ z ∈ xs, M.prev z = L.prev z := by
    refine ⟨_, rfl, ?_⟩
    cases ys with
    | nil =>
      obtain ⟨-, hn⟩ := hys
      simp only [hn]
      exact ⟨b, ⟨rfl, rfl⟩, fun _ => trivial, fun _ _ => trivial⟩
    | cons y ys =>
      have hn := hys.1
      have hs := hys.setPrev_first hndy b
      simp only [hn, hprev] at hs ⊢
      exact ⟨last, hs, fun _ => rfl, fun z hz => L.setPrev_prev_of_ne b (hne z hz y (by simp))⟩
  have hunlink : L.unlink x = match L.prev x with
      | some p => M.setNext p (L.next x)
      | none => M := by
    rw [hM]
    rfl
  rw [hunlink, Links.unlinkHead, hprev]
  rcases List.eq_nil_or_concat xs with rfl | ⟨zs, z, rfl⟩
  · obtain ⟨rfl, rfl⟩ := hxs
    exact ⟨last', hback⟩
  · rw [List.concat_eq_append] at *
    obtain ⟨rfl, -⟩ := hxs.after_eq
    have hfront := (hxs.congr (fun z _ => hnextM z) hprevM).setNext_last hndx (L.next x)
    refine ⟨last', segment_append.mpr ⟨some z, L.next x, hfront, ?_⟩⟩
    refine hback.congr (fun w hw => ?_) (fun _ _ => rfl)
    exact Links.setNext_next_of_ne _ _ (hne z (by simp) w hw).symm

end Segments

/-! ### Several lists in one memory -/

section Family
variable {κ : Type*} {L M : Links ι} {heads : κ → Option ι}
  {lists : κ → List ι} {x : ι} {xs ys : List ι}

/-- One list for each key, no two of which share an element. -/
structure IsFamily (L : Links ι) (heads : κ → Option ι) (lists : κ → List ι) : Prop where
  isList : ∀ k, IsList L (heads k) (lists k)
  nodup : ∀ k, (lists k).Nodup
  disjoint : ∀ j k, j ≠ k → List.Disjoint (lists j) (lists k)

theorem IsFamily.congr (h : IsFamily L heads lists)
    (hn : ∀ k, ∀ x ∈ lists k, M.next x = L.next x)
    (hp : ∀ k, ∀ x ∈ lists k, M.prev x = L.prev x) : IsFamily M heads lists :=
  ⟨fun k => (h.isList k).congr (hn k) (hp k), h.nodup, h.disjoint⟩

variable [DecidableEq κ]

/-- Replace one list, where the lists of the other keys are out of reach of the change. -/
theorem IsFamily.update (h : IsFamily L heads lists) (k : κ) (head : Option ι)
    (hk : IsList M head xs) (hnd : xs.Nodup)
    (hdisj : ∀ j, j ≠ k → List.Disjoint xs (lists j))
    (hn : ∀ j, j ≠ k → ∀ z ∈ lists j, M.next z = L.next z)
    (hp : ∀ j, j ≠ k → ∀ z ∈ lists j, M.prev z = L.prev z) :
    IsFamily M (Function.update heads k head) (Function.update lists k xs) := by
  refine ⟨fun j => ?_, fun j => ?_, fun i j hij => ?_⟩
  · by_cases hj : j = k
    · subst hj
      simpa using hk
    · simpa [hj] using (h.isList j).congr (hn j hj) (hp j hj)
  · by_cases hj : j = k
    · subst hj
      simpa using hnd
    · simpa [hj] using h.nodup j
  · by_cases hi : i = k
    · subst hi
      simpa [Ne.symm hij] using hdisj j (Ne.symm hij)
    · by_cases hj : j = k
      · subst hj
        simpa [hi] using (hdisj i hi).symm
      · simpa [hi, hj] using h.disjoint i j hij

variable [DecidableEq ι]

theorem IsFamily.pushFront (h : IsFamily L heads lists) (k : κ) (hx : ∀ j, x ∉ lists j) :
    IsFamily (L.pushFront (heads k) x) (Function.update heads k (some x))
      (Function.update lists k (x :: lists k)) := by
  have hhead := (h.isList k).head_eq
  refine h.update k (some x) ((h.isList k).pushFront (hx k) (h.nodup k))
    (List.nodup_cons.mpr ⟨hx k, h.nodup k⟩) (fun j hj => ?_) (fun j hj z hz => ?_)
    (fun j hj z hz => ?_)
  · rw [List.disjoint_cons_left]
    exact ⟨hx j, h.disjoint k j (Ne.symm hj)⟩
  all_goals
    have hzx : z ≠ x := by
      rintro rfl
      exact hx j hz
    have hzk : z ∉ lists k := h.disjoint j k hj hz
  · unfold Links.pushFront
    rw [Links.setPrev_next, Links.setNext_next_of_ne _ _ hzx]
    split <;> rfl
  · unfold Links.pushFront
    rw [Links.setPrev_prev_of_ne _ _ hzx, Links.setNext_prev]
    split
    · rename_i y hy
      refine L.setPrev_prev_of_ne _ ?_
      rintro rfl
      exact hzk (List.mem_of_mem_head? (hhead ▸ hy))
    · rfl

theorem IsFamily.unlink (h : IsFamily L heads lists) (k : κ) (hk : lists k = xs ++ x :: ys) :
    IsFamily (L.unlink x) (Function.update heads k (L.unlinkHead (heads k) x))
      (Function.update lists k (xs ++ ys)) := by
  have hlist := h.isList k
  have hnd := h.nodup k
  rw [hk] at hlist hnd
  have hsub : ∀ z ∈ xs ++ ys, z ∈ lists k := fun z hz => by
    rw [hk]
    rcases List.mem_append.mp hz with hz | hz <;> simp [hz]
  obtain ⟨hprev, hnext⟩ := hlist.neighbours
  refine h.update k _ (hlist.unlink hnd) ?_ (fun j hj z hz hz' => ?_) (fun j hj z hz => ?_)
    (fun j hj z hz => ?_)
  · exact hnd.sublist ((List.sublist_cons_self x ys).append_left xs)
  · exact h.disjoint k j (Ne.symm hj) (hsub z hz) hz'
  all_goals have hzk : z ∉ lists k := h.disjoint j k hj hz
  · have hz' : L.prev x ≠ some z := fun e => hzk (hsub z (by simp [hprev z e]))
    rw [Links.unlink]
    cases hp : L.prev x with
    | none => dsimp only; split <;> rfl
    | some y =>
      dsimp only
      rw [Links.setNext_next_of_ne _ _ (fun e : z = y => hz' (e ▸ hp))]
      split <;> rfl
  · have hz' : L.next x ≠ some z := fun e => hzk (hsub z (by simp [hnext z e]))
    rw [Links.unlink]
    cases hn : L.next x with
    | none => dsimp only; split <;> rfl
    | some y =>
      have hzy : z ≠ y := fun e => hz' (e ▸ hn)
      dsimp only
      split
      · rw [Links.setNext_prev, Links.setPrev_prev_of_ne _ _ hzy]
      · rw [Links.setPrev_prev_of_ne _ _ hzy]

end Family
end Intrusive
