import FileTransfer.Foundation.Run
import FileTransfer.Infra.Ownership

/-! The stack of `stack.c`, which its caller has one pointer to, as a bounded stack of words. -/
namespace FileTransfer
open Heap Run

/-- The array has `size` elements. -/
structure Stack where
  addr : ℕ
  numOfItems : UInt16
  size : UInt16
  stackArray : ℕ → Int32

/-- The heap and the pointer of the caller. -/
structure StackCaller where
  heap : Heap
  st : Option Stack

inductive StackRequest
  | create (size : UInt16)
  | push (data : UInt16)
  /-- Without `outData` the pointer for the result is NULL. -/
  | pop (outData : Bool)
  | free
deriving DecidableEq, Repr

namespace StackCaller

def start (grant : ℕ → Bool) : StackCaller := ⟨⟨grant, 0, []⟩, none⟩

def onHeap {α : Type} : HeapCall α → Call StackCaller α :=
  zoom (·.heap) fun c heap => { c with heap }

def setStack (st : Option Stack) : Call StackCaller Unit := modify fun c => { c with st }

end StackCaller

open StackCaller

def stackCreate (size : UInt16) : Call StackCaller Unit := do
  if size = 0 then throw .EINVAL
  match ← onHeap request with
  | none =>
    setStack none
    throw .ENOMEM
  | some addr =>
    onHeap (access addr)
    setStack (some ⟨addr, 0, size, fun _ => 0⟩)

def stackPush (data : UInt16) : Call StackCaller Unit := do
  match (← get).st with
  | none => throw .EINVAL
  | some st =>
    onHeap (access st.addr)
    if st.numOfItems = st.size then throw .EINVAL
    if st.size ≤ st.numOfItems then throw .outOfBounds
    setStack (some { st with
      stackArray := Function.update st.stackArray st.numOfItems.toNat data.toUInt32.toInt32
      numOfItems := st.numOfItems + 1 })

def stackPop (outData : Bool) : Call StackCaller UInt16 := do
  match (← get).st with
  | none => throw .EINVAL
  | some st =>
    if !outData then throw .EINVAL
    onHeap (access st.addr)
    if st.numOfItems = 0 then throw .ENOENT
    let numOfItems := st.numOfItems - 1
    if st.size ≤ numOfItems then throw .outOfBounds
    setStack (some { st with numOfItems })
    return (st.stackArray numOfItems.toNat).toUInt32.toUInt16

def stackFree : Call StackCaller Unit := do
  match (← get).st with
  | none => throw .EINVAL
  | some st =>
    onHeap (release st.addr)
    setStack none

def StackCaller.answer (c : StackCaller) :
    StackRequest → Except Errno (Option UInt16) × StackCaller
  | .create size => FileTransfer.answer ((fun _ => none) <$> stackCreate size) c
  | .push data => FileTransfer.answer ((fun _ => none) <$> stackPush data) c
  | .pop outData => FileTransfer.answer (some <$> stackPop outData) c
  | .free => FileTransfer.answer ((fun _ => none) <$> stackFree) c

/-! ### The stack as a list -/

/-- The words that are in, the last one first. -/
structure BoundedStack where
  capacity : ℕ
  items : List UInt16

/-- The stack of a caller, the number of its requests for memory, and how many stacks it has lost
by a creation over a pointer that was not freed. -/
structure BoundedStacks where
  stack : Option BoundedStack
  requests : ℕ
  lost : ℕ

namespace BoundedStacks

def start : BoundedStacks := ⟨none, 0, 0⟩

def live (a : BoundedStacks) : ℕ := if a.stack.isSome then 1 else 0

def answer (grant : ℕ → Bool) (a : BoundedStacks) :
    StackRequest → Except Errno (Option UInt16) × BoundedStacks
  | .create size =>
    if size = 0 then (.error .EINVAL, a)
    else if grant a.requests then
      (.ok none, ⟨some ⟨size.toNat, []⟩, a.requests + 1, a.lost + a.live⟩)
    else (.error .ENOMEM, ⟨none, a.requests + 1, a.lost + a.live⟩)
  | .push data =>
    match a.stack with
    | none => (.error .EINVAL, a)
    | some b =>
      if b.items.length = b.capacity then (.error .EINVAL, a)
      else (.ok none, { a with stack := some { b with items := data :: b.items } })
  | .pop outData =>
    match a.stack with
    | none => (.error .EINVAL, a)
    | some b =>
      if !outData then (.error .EINVAL, a)
      else match b.items with
        | [] => (.error .ENOENT, a)
        | data :: items => (.ok (some data), { a with stack := some { b with items } })
  | .free =>
    match a.stack with
    | none => (.error .EINVAL, a)
    | some _ => (.ok none, { a with stack := none })

end BoundedStacks

/-- The words stand in the array, the first one at the bottom; what is above them does not
matter. -/
structure Stack.Shows (s : Stack) (b : BoundedStack) : Prop where
  numOfItems : s.numOfItems.toNat = b.items.length
  size : s.size.toNat = b.capacity
  le : b.items.length ≤ b.capacity
  items : ∀ i data, b.items.reverse[i]? = some data →
    (s.stackArray i).toUInt32.toUInt16 = data

/-- The object of the stack that the caller has. -/
def StackCaller.owned (c : StackCaller) : Multiset ℕ :=
  match c.st with
  | none => 0
  | some s => {s.addr}

/-- The caller has the stack, and what is allocated are its stack and those that it has lost. -/
structure StackCaller.Shows (grant : ℕ → Bool) (c : StackCaller) (a : BoundedStacks) : Prop where
  stack : match c.st, a.stack with
    | none, none => True
    | some s, some b => s.Shows b
    | _, _ => False
  grant : c.heap.grant = grant
  requests : c.heap.requests = a.requests
  owns : ∃ lost : Multiset ℕ, lost.card = a.lost ∧ c.heap.Owns (c.owned + lost)

section Shows
variable {grant : ℕ → Bool} {c : StackCaller} {a : BoundedStacks} {s : Stack} {b : BoundedStack}

theorem Stack.Shows.push (h : s.Shows b) (data : UInt16) (hroom : b.items.length ≠ b.capacity) :
    Stack.Shows { s with
      stackArray := Function.update s.stackArray s.numOfItems.toNat data.toUInt32.toInt32
      numOfItems := s.numOfItems + 1 } { b with items := data :: b.items } := by
  have hle := h.le
  have hsize := s.size.toNat_lt
  have hbound := h.size
  constructor
  · rw [UInt16.toNat_add, h.numOfItems, List.length_cons]
    exact Nat.mod_eq_of_lt (by change b.items.length + 1 < 65536; omega)
  · exact h.size
  · rw [List.length_cons]
    dsimp only
    omega
  · intro i word hi
    rw [List.reverse_cons, List.getElem?_append] at hi
    dsimp only
    rw [h.numOfItems, Function.update_apply]
    rw [List.length_reverse] at hi
    by_cases hlt : i < b.items.length
    · rw [if_pos hlt] at hi
      rw [if_neg (by omega)]
      exact h.items i word hi
    · rw [if_neg hlt] at hi
      have hlast : i = b.items.length := by
        have := (List.getElem?_eq_some_iff.mp hi).1
        rw [List.length_singleton] at this
        omega
      rw [hlast, Nat.sub_self] at hi
      rw [if_pos hlast, ← Option.some.inj hi]
      simp

theorem Stack.Shows.pop {data : UInt16} {items : List UInt16} (h : s.Shows b)
    (hitems : b.items = data :: items) :
    Stack.Shows { s with numOfItems := s.numOfItems - 1 } { b with items } ∧
      (s.stackArray (s.numOfItems - 1).toNat).toUInt32.toUInt16 = data ∧
      s.numOfItems ≠ 0 ∧ ¬ s.size ≤ s.numOfItems - 1 := by
  have hle := h.le
  have hnum := h.numOfItems
  have hsize := h.size
  rw [hitems, List.length_cons] at hle hnum
  have hpos : 1 ≤ s.numOfItems := by
    rw [UInt16.le_iff_toNat_le, hnum]
    exact Nat.succ_le_succ (Nat.zero_le _)
  have hnext : (s.numOfItems - 1).toNat = items.length := by
    rw [UInt16.toNat_sub_of_le _ _ hpos, hnum]
    rfl
  refine ⟨⟨hnext, h.size, by dsimp only; omega, fun i word hi => ?_⟩, ?_, ?_, ?_⟩
  · apply h.items i word
    rw [hitems, List.reverse_cons]
    rwa [List.getElem?_append_left (List.getElem?_eq_some_iff.mp hi).1]
  · rw [hnext]
    apply h.items
    rw [hitems, List.reverse_cons]
    simp
  · rintro hzero
    rw [hzero] at hnum
    cases hnum
  · rw [UInt16.le_iff_toNat_le, hnext, hsize]
    omega

namespace StackCaller
namespace Shows

/-- What the caller's pointer and the list have to do with each other. -/
theorem cases (h : c.Shows grant a) :
    c.st = none ∧ a.stack = none ∨ ∃ s b, c.st = some s ∧ a.stack = some b ∧ s.Shows b := by
  have hstack := h.stack
  cases hc : c.st with
  | none =>
    cases ha : a.stack with
    | none => exact Or.inl ⟨rfl, rfl⟩
    | some b =>
      rw [hc, ha] at hstack
      exact hstack.elim
  | some s =>
    cases ha : a.stack with
    | none =>
      rw [hc, ha] at hstack
      exact hstack.elim
    | some b =>
      rw [hc, ha] at hstack
      exact Or.inr ⟨s, b, rfl, rfl, hstack⟩

theorem card_owned (h : c.Shows grant a) : c.owned.card = a.live := by
  unfold owned BoundedStacks.live
  rcases h.cases with ⟨hc, ha⟩ | ⟨s, b, hc, ha, -⟩
  · simp [hc, ha]
  · simp [hc, ha]

/-- The heap has seen an access to the stack, which may have changed. -/
theorem accessed (h : c.Shows grant a) (hc : c.st = some s) {s' : Stack} (hs : s'.Shows b)
    (haddr : s'.addr = s.addr) :
    Shows grant ⟨{ c.heap with events := .access s.addr :: c.heap.events }, some s'⟩
      { a with stack := some b } := by
  obtain ⟨lost, hlost, howns⟩ := h.owns
  have howned : c.owned = {s.addr} := by
    unfold owned
    rw [hc]
  refine ⟨hs, h.grant, h.requests, lost, hlost, ?_⟩
  have howned' : StackCaller.owned
      ⟨{ c.heap with events := .access s.addr :: c.heap.events }, some s'⟩ = c.owned := by
    rw [howned, ← haddr]
    rfl
  rw [howned']
  apply howns.accessed
  simp [howned]

theorem looked (h : c.Shows grant a) (hc : c.st = some s) :
    Shows grant ⟨{ c.heap with events := .access s.addr :: c.heap.events }, some s⟩ a := by
  rcases h.cases with ⟨hnone, -⟩ | ⟨s', b, hc', ha, hs⟩
  · cases hnone.symm.trans hc
  · obtain rfl : s' = s := Option.some.inj (hc'.symm.trans hc)
    have hnext := h.accessed hc hs rfl
    rwa [← ha] at hnext

theorem full_iff (hs : s.Shows b) : s.numOfItems = s.size ↔ b.items.length = b.capacity := by
  rw [← UInt16.toNat_inj, hs.numOfItems, hs.size]

theorem push (h : c.Shows grant a) (data : UInt16) :
    (c.answer (.push data)).1 = (a.answer grant (.push data)).1 ∧
      Shows grant (c.answer (.push data)).2 (a.answer grant (.push data)).2 := by
  rcases h.cases with ⟨hc, ha⟩ | ⟨s, b, hc, ha, hs⟩
  · have hrun : c.answer (.push data) = (.error .EINVAL, c) := by
      simp [StackCaller.answer, FileTransfer.answer, stackPush, hc]
    rw [hrun]
    simpa [BoundedStacks.answer, ha] using h
  · by_cases hfull : s.numOfItems = s.size
    · have hrun : c.answer (.push data) = (.error .EINVAL,
          ⟨{ c.heap with events := .access s.addr :: c.heap.events }, some s⟩) := by
        simp [StackCaller.answer, FileTransfer.answer, stackPush, onHeap, zoom_run, access, hc,
          hfull]
      rw [hrun]
      simpa [BoundedStacks.answer, ha, (full_iff hs).mp hfull] using h.looked hc
    · have hroom : b.items.length ≠ b.capacity := mt (full_iff hs).mpr hfull
      have hin : ¬ s.size ≤ s.numOfItems := by
        rw [UInt16.le_iff_toNat_le, hs.numOfItems, hs.size]
        have := hs.le
        omega
      have hrun : c.answer (.push data) =
          (.ok none, ⟨{ c.heap with events := .access s.addr :: c.heap.events }, some { s with
            stackArray := Function.update s.stackArray s.numOfItems.toNat data.toUInt32.toInt32
            numOfItems := s.numOfItems + 1 }⟩) := by
        simp [StackCaller.answer, FileTransfer.answer, stackPush, onHeap, setStack, zoom_run,
          access, hc, hfull, hin]
      rw [hrun]
      simpa [BoundedStacks.answer, ha, hroom] using h.accessed hc (hs.push data hroom) rfl

theorem pop (h : c.Shows grant a) (outData : Bool) :
    (c.answer (.pop outData)).1 = (a.answer grant (.pop outData)).1 ∧
      Shows grant (c.answer (.pop outData)).2 (a.answer grant (.pop outData)).2 := by
  rcases h.cases with ⟨hc, ha⟩ | ⟨s, b, hc, ha, hs⟩
  · have hrun : c.answer (.pop outData) = (.error .EINVAL, c) := by
      simp [StackCaller.answer, FileTransfer.answer, stackPop, hc]
    rw [hrun]
    simpa [BoundedStacks.answer, ha] using h
  · cases outData with
    | false =>
      have hrun : c.answer (.pop false) = (.error .EINVAL, c) := by
        simp [StackCaller.answer, FileTransfer.answer, stackPop, hc]
      rw [hrun]
      simpa [BoundedStacks.answer, ha] using h
    | true =>
      cases hitems : b.items with
      | nil =>
        have hempty : s.numOfItems = 0 := by
          rw [← UInt16.toNat_inj, hs.numOfItems, hitems]
          rfl
        have hrun : c.answer (.pop true) = (.error .ENOENT,
            ⟨{ c.heap with events := .access s.addr :: c.heap.events }, some s⟩) := by
          simp [StackCaller.answer, FileTransfer.answer, stackPop, onHeap, zoom_run, access, hc,
            hempty]
        rw [hrun]
        simpa [BoundedStacks.answer, ha, hitems] using h.looked hc
      | cons data items =>
        obtain ⟨hpop, hdata, hne, hin⟩ := hs.pop hitems
        have hrun : c.answer (.pop true) = (.ok (some data),
            ⟨{ c.heap with events := .access s.addr :: c.heap.events },
              some { s with numOfItems := s.numOfItems - 1 }⟩) := by
          simp [StackCaller.answer, FileTransfer.answer, stackPop, onHeap, setStack, zoom_run,
            access, hc, hne, hin, hdata]
        rw [hrun]
        simpa [BoundedStacks.answer, ha, hitems] using h.accessed hc hpop rfl

theorem free (h : c.Shows grant a) : (c.answer .free).1 = (a.answer grant .free).1 ∧
    Shows grant (c.answer .free).2 (a.answer grant .free).2 := by
  rcases h.cases with ⟨hc, ha⟩ | ⟨s, b, hc, ha, hs⟩
  · have hrun : c.answer .free = (.error .EINVAL, c) := by
      simp [StackCaller.answer, FileTransfer.answer, stackFree, hc]
    rw [hrun]
    simpa [BoundedStacks.answer, ha] using h
  · have hrun : c.answer .free =
        (.ok none, ⟨{ c.heap with events := .release s.addr :: c.heap.events }, none⟩) := by
      simp [StackCaller.answer, FileTransfer.answer, stackFree, onHeap, setStack, zoom_run,
        release, hc]
    obtain ⟨lost, hlost, howns⟩ := h.owns
    have howned : c.owned + lost = s.addr ::ₘ lost := by
      unfold owned
      rw [hc, Multiset.singleton_add]
    rw [howned] at howns
    have hreleased := howns.released
    rw [hrun]
    simp only [BoundedStacks.answer, ha]
    refine ⟨trivial, trivial, h.grant, h.requests, lost, hlost, ?_⟩
    simpa [owned] using hreleased

theorem create (h : c.Shows grant a) (size : UInt16) :
    (c.answer (.create size)).1 = (a.answer grant (.create size)).1 ∧
      Shows grant (c.answer (.create size)).2 (a.answer grant (.create size)).2 := by
  obtain ⟨lost, hlost, howns⟩ := h.owns
  have hcard : (c.owned + lost).card = a.lost + a.live := by
    rw [Multiset.card_add, hlost, h.card_owned, Nat.add_comm]
  by_cases hsize : size = 0
  · have hrun : c.answer (.create size) = (.error .EINVAL, c) := by
      simp [StackCaller.answer, FileTransfer.answer, stackCreate, hsize]
    rw [hrun]
    simpa [BoundedStacks.answer, hsize] using h
  · have hrequest : c.heap.grant c.heap.requests = grant a.requests := by
      rw [h.grant, h.requests]
    by_cases hgrant : grant a.requests = true
    · have hrun : c.answer (.create size) = (.ok none,
          ⟨{ c.heap.granted with
            events := .access c.heap.requests :: c.heap.granted.events },
            some ⟨c.heap.requests, 0, size, fun _ => 0⟩⟩) := by
        simp [StackCaller.answer, FileTransfer.answer, stackCreate, onHeap, setStack, zoom_run,
          request_run, access, granted, hsize, hrequest, hgrant]
      have hnext := howns.granted.accessed (Multiset.mem_cons_self _ _)
      rw [hrun]
      simp only [BoundedStacks.answer, if_neg hsize, if_pos hgrant]
      refine ⟨trivial, ?_, h.grant, congrArg (· + 1) h.requests, c.owned + lost, hcard, hnext⟩
      exact ⟨rfl, rfl, Nat.zero_le _, by simp⟩
    · have hrun : c.answer (.create size) = (.error .ENOMEM, ⟨c.heap.refused, none⟩) := by
        simp [StackCaller.answer, FileTransfer.answer, stackCreate, onHeap, setStack, zoom_run,
          request_run, refused, hsize, hrequest, hgrant]
      rw [hrun]
      simp only [BoundedStacks.answer, if_neg hsize, if_neg hgrant]
      refine ⟨trivial, trivial, h.grant, congrArg (· + 1) h.requests, c.owned + lost, hcard, ?_⟩
      simpa [owned] using howns.refused

/-- One request. -/
theorem answer (h : c.Shows grant a) (r : StackRequest) :
    (c.answer r).1 = (a.answer grant r).1 ∧ Shows grant (c.answer r).2 (a.answer grant r).2 := by
  cases r with
  | create size => exact h.create size
  | push data => exact h.push data
  | pop outData => exact h.pop outData
  | free => exact h.free

end Shows
end StackCaller
end Shows

/-- Along every run of requests the stack answers as a bounded list does and stays inside of its
array; nothing is used after its release, and what is allocated is the stack that the caller has and
those over which it has created another one. -/
theorem stack_refines (grant : ℕ → Bool) (requests : List StackRequest) :
    outputs StackCaller.answer (.start grant) requests =
        outputs (BoundedStacks.answer grant) .start requests ∧
      ∃ owned : Multiset ℕ, (final StackCaller.answer (.start grant) requests).heap.Owns owned ∧
        owned.card = (final (BoundedStacks.answer grant) .start requests).live +
          (final (BoundedStacks.answer grant) .start requests).lost := by
  have hstart : StackCaller.Shows grant (.start grant) .start :=
    ⟨trivial, rfl, rfl, 0, rfl, .start grant 0⟩
  obtain ⟨houtputs, hfinal⟩ := outputs_eq_of_simulation
    (fun c a r (h : StackCaller.Shows grant c a) => h.answer r) hstart requests
  obtain ⟨lost, hlost, howns⟩ := hfinal.owns
  refine ⟨houtputs, _, howns, ?_⟩
  rw [Multiset.card_add, hfinal.card_owned, hlost]

example : outputs StackCaller.answer (.start fun _ => true)
    [.create 2, .push 7, .push 8, .push 9, .pop true, .free] =
      [.ok none, .ok none, .ok none, .error .EINVAL, .ok (some 8), .ok none] := by
  decide +kernel

end FileTransfer
